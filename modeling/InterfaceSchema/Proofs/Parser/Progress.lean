import InterfaceSchema.Proofs.Parser.Lockstep
import InterfaceSchema.Proofs.Parser.Reports
import InterfaceSchema.Proofs.Parser.Unterminated

namespace InterfaceSchema

namespace Descent

open InterfaceSchema.Parser (accept placeEvents)

variable {tokens : List Token} {t : Token} {p : Parser} {cursor next : Cursor} {s : Scopes}
  {place : Place} {slot : Slot} {lists : List ArgumentList}

def Delivers (tokens : List Token) (cursor : Cursor) : Except ParseError (Scopes × Place) → Prop
  | .error error => parseTokens tokens = ⟨.error error, cursor.reported.reverse⟩
  | .ok (s, place) => At tokens ⟨s, .place place⟩ cursor

-- A name that no list of arguments follows is a complete mention.
theorem Sees.delivers (h : Sees tokens p cursor t) (ht : t.kind ≠ .typeArgumentsStart) :
    Delivers tokens cursor p.settle := by
  cases hsettle : p.settle with
  | error error =>
    by_cases hend : t.kind = .endOfFile
    · rw [Delivers, h.finish hend, Parser.finish_eq_settle, hsettle]
    · exact h.step_error hend (Parser.step_of_settle_error hsettle ht)
  | ok settled =>
    obtain ⟨s, place⟩ := settled
    refine ⟨h.closed, h.inRange, ?_⟩
    obtain ⟨hlt, heq⟩ := List.getElem?_eq_some_iff.mp h.token
    rw [← h.run_eq_cons, List.drop_eq_getElem_cons hlt, heq, Parser.run, Parser.run,
      Parser.finish_eq_settle p, hsettle, Parser.step_of_settle hsettle ht,
      Parser.events_of_settle hsettle ht]
    rfl

theorem Sees.delivers_close {inner : ArgumentList} {outer : List ArgumentList}
    (h : Sees tokens ⟨s, .place (.argumentEnd slot inner outer)⟩ cursor t)
    (ht : t.kind = .typeArgumentsEnd) :
    Delivers tokens cursor.next (s.deliver slot outer ⟨inner.name, inner.arguments⟩) := by
  have hne : t.kind ≠ .endOfFile := by rw [ht]; decide
  cases hdeliver : s.deliver slot outer ⟨inner.name, inner.arguments⟩ with
  | error error =>
    have hstep : accept s (.argumentEnd slot inner outer) t = .error error := by
      simp [accept, ht, hdeliver]
    exact h.step_error hne hstep
  | ok delivered =>
    refine h.goto ?_ rfl
    simp [accept, ht, hdeliver]

theorem ends_argumentPass {mention : Reader TypeRef} {name : String} {arguments : List TypeRef}
    (h : At tokens ⟨s, .place (.argument slot ⟨name, arguments⟩ lists)⟩ cursor)
    (hmention : ∀ t, Sees tokens ⟨s, .place (.argument slot ⟨name, arguments⟩ lists)⟩ cursor t →
      t.kind.isName → Ends tokens
        (fun type next =>
          At tokens ⟨s, .place (.argumentEnd slot ⟨name, arguments ++ [type]⟩ lists)⟩ next ∧
            cursor.Past next) (mention cursor)) :
    Ends tokens
      (Sum.elim
        (fun arguments next =>
          At tokens ⟨s, .place (.argument slot ⟨name, arguments⟩ lists)⟩ next ∧ cursor.Past next)
        fun arguments next =>
          Delivers tokens next (s.deliver slot lists ⟨name, arguments⟩) ∧ cursor.Past next)
      (argumentPass tokens mention arguments cursor) := by
  obtain ⟨t, ht⟩ := h.sees
  rw [argumentPass, bind_of_ok ht.peek_eq]
  by_cases hname : t.kind.isName
  · rw [if_neg (by simpa using hname)]
    refine (hmention t ht hname).bind fun type next ⟨hnext, hpast⟩ => ?_
    obtain ⟨u, hu⟩ := hnext.sees
    rw [bind_of_ok hu.peek_eq]
    split
    · next hsep =>
      refine ends_shift hu ?_ rfl fun hnext => ⟨hnext, hpast.trans next.past_next⟩
      simp [accept, hsep]
    · next hsep =>
      split
      · next hclose =>
        have hne : u.kind ≠ .endOfFile := by rw [hclose]; decide
        rw [bind_of_ok (hu.consume_eq hne)]
        exact ⟨hu.delivers_close hclose, hpast.trans next.past_next⟩
      · next hclose =>
        refine ends_fail hu (hu.reject ?_ rfl)
        simp [accept, hsep, hclose]
  · rw [if_pos (by simpa using hname)]
    refine ends_fail ht (ht.reject ?_ rfl)
    simp [accept, hname]

theorem Delivers.up {delivered : Except ParseError (Scopes × Place)}
    (h : Delivers tokens cursor delivered) : Delivers tokens cursor.up delivered := by
  cases delivered with
  | error error => exact h
  | ok settled => exact At.up h

theorem ends_arguments {entry : Cursor} {mention : Reader TypeRef} {name : String}
    (h : At tokens ⟨s, .place (.argument slot ⟨name, []⟩ lists)⟩ cursor)
    (hentry : entry.Past cursor)
    (hmention : ∀ arguments later t,
      Sees tokens ⟨s, .place (.argument slot ⟨name, arguments⟩ lists)⟩ later t →
      entry.Past later → t.kind.isName → Ends tokens
        (fun type next =>
          At tokens ⟨s, .place (.argumentEnd slot ⟨name, arguments ++ [type]⟩ lists)⟩ next ∧
            later.Past next) (mention later)) :
    Ends tokens
      (fun arguments next =>
        Delivers tokens next (s.deliver slot lists ⟨name, arguments⟩) ∧ entry.Past next)
      (loop tokens (argumentPass tokens mention) [] cursor) := by
  refine ends_passes (fun arguments => ⟨s, .place (.argument slot ⟨name, arguments⟩ lists)⟩) ?_ h
    hentry
  intro arguments later hat hlater
  exact ends_argumentPass hat fun t ht hname => hmention arguments later t ht hlater hname

theorem ends_mention (h : Sees tokens ⟨s, .place place⟩ cursor t)
    (hstarts : Parser.StartsType place slot lists) (hquiet : ∀ t, placeEvents s place t = [])
    (hname : t.kind.isName) (hdepth : cursor.depth = s.outer.length + lists.length) :
    Ends tokens
      (fun type next => Delivers tokens next (s.deliver slot lists type) ∧ cursor.Past next)
      (mention tokens cursor) := by
  induction cursor using mention.induct tokens generalizing s place slot lists t with
  | case1 cursor ih =>
    have hfirst : At tokens ⟨s, .typeName slot lists t.value⟩ cursor.next :=
      h.quiet_step (hstarts s t hname) (hquiet t)
    obtain ⟨u, hu⟩ := hfirst.sees
    rw [mention, mentionWith, bind_of_ok h.peek_eq, if_neg (by simpa using hname),
      bind_of_ok (h.consume_of_step (hstarts s t hname)), bind_of_ok hu.peek_eq]
    by_cases hopen : u.kind = .typeArgumentsStart
    · have hne : u.kind ≠ .endOfFile := by rw [hopen]; decide
      rw [if_neg (not_not.mpr hopen), get_bind]
      split
      · next hlimit =>
        have hfull : s.outer.length + lists.length = nestingLimit := hdepth ▸ hlimit
        refine ends_fail hu (hu.step_error hne ?_)
        simp [Parser.step, hopen, Parser.openArguments, hfull]
      · next hlimit =>
        have hroom : s.outer.length + lists.length ≠ nestingLimit := hdepth ▸ hlimit
        have hsecond : At tokens ⟨s, .place (.argument slot ⟨t.value, []⟩ lists)⟩
            cursor.next.next := by
          refine hu.quiet_step ?_ ?_
          · simp [Parser.step, hopen, Parser.openArguments, hroom, Parser.goto]
          · simp [Parser.events, hopen]
        have hentry : cursor.Past cursor.next.next :=
          cursor.past_next.trans cursor.next.past_next
        rw [bind_of_ok (hu.consume_eq hne)]
        refine Ends.bind (ends_deeper ((ends_arguments hsecond.down hentry.down ?_).imp
          fun arguments next hend => ⟨hend.1.up, hend.2.up⟩)) fun arguments next hend => hend
        -- An argument stands behind the bracket, so the mention in it is read further on.
        intro arguments later v hv hlater hname'
        have hprecedes : cursor.Precedes tokens later := ⟨hlater.index, hv.inRange⟩
        rw [if_pos hprecedes]
        refine ih later hprecedes hv (Parser.startsType_argument slot _ lists) (fun _ => rfl)
          hname' ?_
        rw [hlater.depth, List.length_cons, ← Nat.add_assoc, ← hdepth]
        rfl
    · rw [if_pos hopen]
      exact ⟨hu.delivers hopen, cursor.past_next⟩

theorem Sees.define (h : Sees tokens ⟨s, .place .body⟩ cursor t) (ht : t.kind = .keyword)
    (hdefine : s.define t = .ok place) :
    consume tokens cursor = .ok (t, cursor.next) ∧ At tokens ⟨s, .place place⟩ cursor.next := by
  have hgoto : accept s .body t = Parser.goto s place := by simp [accept, ht, hdefine]
  refine ⟨h.consume_of_step hgoto, h.goto hgoto ?_⟩
  simp [placeEvents, ht]

theorem ends_blockStart {kind : BlockKind} (h : Sees tokens ⟨s, .place .body⟩ cursor t)
    (ht : t.kind = .keyword) (hdefine : s.define t = .ok (.blockName kind)) :
    Ends tokens
      (fun name next =>
        At tokens ⟨(s.enterBlock kind name).1, .place (s.enterBlock kind name).2⟩ next ∧
          cursor.Past next)
      (blockStart tokens kind cursor) := by
  obtain ⟨hconsume, hname⟩ := h.define ht hdefine
  rw [blockStart, bind_of_ok hconsume]
  refine (ends_expect hname (fun _ => rfl) rfl fun _ => rfl).bind ?_
  rintro name afterName ⟨-, hblock, hpast⟩
  refine (ends_expect hblock (fun _ => rfl) rfl fun _ => rfl).bind ?_
  rintro brace next ⟨-, hnext, hpast'⟩
  exact ⟨hnext, cursor.past_next.trans (hpast.trans hpast')⟩

theorem ends_option (h : Sees tokens ⟨s, .place .body⟩ cursor t) (ht : t.kind = .keyword)
    (hdefine : s.define t = .ok .optionName) :
    Ends tokens
      (fun entry next =>
        At tokens ⟨s.addOption entry.1 entry.2, .place .body⟩ next ∧ cursor.Past next)
      (option tokens cursor) := by
  obtain ⟨hconsume, hname⟩ := h.define ht hdefine
  rw [option, bind_of_ok hconsume]
  refine (ends_expect hname (fun _ => rfl) rfl fun _ => rfl).bind ?_
  rintro key afterKey ⟨-, hkey, hpast⟩
  obtain ⟨v, hv⟩ := hkey.sees
  rw [bind_of_ok hv.peek_eq]
  split
  · next hvalue =>
    have hend := cursor.past_next.trans (hpast.trans afterKey.past_next)
    refine ends_shift hv ?_ rfl fun hnext => ⟨hnext, hend⟩
    simp [accept, hvalue]
  · next hvalue =>
    refine ends_fail hv (hv.reject ?_ rfl)
    simp [accept, hvalue]

theorem ends_propertyPass {record : RecordType}
    (h : At tokens ⟨s, .place (.property record)⟩ cursor) (hdepth : cursor.depth = s.outer.length) :
    Ends tokens
      (Sum.elim
        (fun record next => At tokens ⟨s, .place (.property record)⟩ next ∧ cursor.Past next)
        fun type next => At tokens ⟨s.addType type, .place .body⟩ next ∧ cursor.Past next)
      (propertyPass tokens record cursor) := by
  obtain ⟨t, ht⟩ := h.sees
  rw [propertyPass, bind_of_ok ht.peek_eq]
  split
  · next hname =>
    have hmention := ends_mention ht (Parser.startsType_property record) (fun _ => rfl) hname hdepth
    refine hmention.bind ?_
    rintro type afterType ⟨hat, hpast⟩
    obtain ⟨n, hn⟩ := At.sees hat
    rw [bind_of_ok hn.peek_eq]
    split
    · next hunnamed =>
      have hunnamed : ¬ n.kind.isName := by simpa using hunnamed
      refine ends_fail hn (hn.reject ?_ rfl)
      simp [accept, hunnamed]
    · next hnamed =>
      have hname' : n.kind.isName := by simpa using hnamed
      have hne : n.kind ≠ .endOfFile := TokenKind.ne_of_isName hname' _ rfl
      split
      · next hold =>
        refine ends_fail hn (hn.step_error hne ?_)
        simp [Parser.step, accept, hname', Parser.addProperty, hold]
      · next hnew =>
        refine ends_shift hn ?_ rfl fun hnext => ⟨hnext, hpast.trans afterType.past_next⟩
        simp [accept, hname', Parser.addProperty, hnew]
  · next hunnamed =>
    split
    · next hclose =>
      refine ends_shift ht ?_ rfl fun hnext => ⟨hnext, cursor.past_next⟩
      simp [accept, hclose, TokenKind.isName]
    · next hopen =>
      split
      · next hend => exact ends_fail ht (ht.finish hend)
      · next hne =>
        refine ends_fail ht (ht.step_error hne ?_)
        simp [Parser.step, accept, hunnamed, hopen, Parser.reject, Place.fault]

theorem ends_record (h : Sees tokens ⟨s, .place .body⟩ cursor t) (ht : t.kind = .keyword)
    (hdefine : s.define t = .ok (.blockName .type)) (hdepth : cursor.depth = s.outer.length) :
    Ends tokens
      (fun type next => At tokens ⟨s.addType type, .place .body⟩ next ∧ cursor.Past next)
      (record tokens cursor) := by
  refine (ends_blockStart h ht hdefine).bind ?_
  rintro name entry ⟨hentry, hpast⟩
  refine ends_passes (fun record => ⟨s, .place (.property record)⟩) ?_ hentry hpast
  intro record later hat hlater
  exact ends_propertyPass hat (hlater.depth.trans hdepth)

theorem ends_memberPass {enum : EnumType} (h : At tokens ⟨s, .place (.member enum)⟩ cursor) :
    Ends tokens
      (Sum.elim (fun enum next => At tokens ⟨s, .place (.member enum)⟩ next ∧ cursor.Past next)
        fun enum next => At tokens ⟨s.addEnum enum, .place .body⟩ next ∧ cursor.Past next)
      (memberPass tokens enum cursor) := by
  obtain ⟨t, ht⟩ := h.sees
  rw [memberPass, bind_of_ok ht.peek_eq]
  split
  · next hname =>
    have hevents : Parser.events ⟨s, .place (.member enum)⟩ t =
        if enum.lists t.value then [.memberRepeated enum.name t.value] else [] := by
      simp [Parser.events, placeEvents, hname]
    have hstep : Parser.step ⟨s, .place (.member enum)⟩ t =
        Parser.goto s (.member (enum.push t.value)) :=
      if_pos hname
    have hnext := ht.step hstep
    rw [hevents] at hnext
    rw [bind_of_ok (ht.consume_of_step hstep)]
    exact ⟨hnext, cursor.past_next.reporting _⟩
  · next hunnamed =>
    split
    · next hclose =>
      refine ends_shift ht ?_ ?_ fun hnext => ⟨hnext, cursor.past_next⟩
      · simp [accept, hclose, TokenKind.isName]
      · simp [placeEvents, hunnamed]
    · next hopen =>
      split
      · next hend => exact ends_fail ht (ht.finish hend)
      · next hne =>
        refine ends_fail ht (ht.step_error hne ?_)
        simp [Parser.step, accept, hunnamed, hopen, Parser.reject, Place.fault]

theorem ends_enum (h : Sees tokens ⟨s, .place .body⟩ cursor t) (ht : t.kind = .keyword)
    (hdefine : s.define t = .ok (.blockName .enum)) :
    Ends tokens
      (fun enum next => At tokens ⟨s.addEnum enum, .place .body⟩ next ∧ cursor.Past next)
      (enum tokens cursor) := by
  refine (ends_blockStart h ht hdefine).bind ?_
  rintro name entry ⟨hentry, hpast⟩
  refine ends_passes (fun enum => ⟨s, .place (.member enum)⟩) ?_ hentry hpast
  intro enum later hat _
  exact ends_memberPass hat

theorem ends_inputPass {name : Token} {input : List TypeRef}
    (h : At tokens ⟨s, .place (.input ⟨name, input⟩)⟩ cursor)
    (hdepth : cursor.depth = s.outer.length) :
    Ends tokens
      (Sum.elim
        (fun input next => At tokens ⟨s, .place (.input ⟨name, input⟩)⟩ next ∧ cursor.Past next)
        fun input next => At tokens ⟨s, .place (.output ⟨name, input⟩)⟩ next ∧ cursor.Past next)
      (inputPass tokens input cursor) := by
  obtain ⟨t, ht⟩ := h.sees
  rw [inputPass, bind_of_ok ht.peek_eq]
  split
  · next hname =>
    refine (ends_mention ht (Parser.startsType_input _) (fun _ => rfl) hname hdepth).bind ?_
    rintro type afterType ⟨hat, hpast⟩
    obtain ⟨u, hu⟩ := At.sees hat
    rw [bind_of_ok hu.peek_eq]
    split
    · next hsep =>
      refine ends_shift hu ?_ rfl fun hnext => ⟨hnext, hpast.trans afterType.past_next⟩
      simp [accept, hsep, Signature.push]
    · next hsep =>
      split
      · next hclose =>
        refine ends_shift hu ?_ rfl fun hnext => ⟨hnext, hpast.trans afterType.past_next⟩
        simp [accept, hclose, Signature.push]
      · next hclose =>
        refine ends_fail hu (hu.reject ?_ rfl)
        simp [accept, hsep, hclose]
  · next hunnamed =>
    split
    · next hclose =>
      refine ends_shift ht ?_ rfl fun hnext => ⟨hnext, cursor.past_next⟩
      simp [accept, hclose, TokenKind.isName]
    · next hopen =>
      refine ends_fail ht (ht.reject ?_ rfl)
      simp [accept, hunnamed, hopen]

theorem ends_rpc (h : Sees tokens ⟨s, .place .body⟩ cursor t) (ht : t.kind = .keyword)
    (hdefine : s.define t = .ok .rpcName) (hdepth : cursor.depth = s.outer.length) :
    Ends tokens
      (fun rpc next => ∃ name, tokens[cursor.index + 1]? = some name ∧ rpc.name = name.value ∧
        Delivers tokens next
          (if s.inner.rpcs.contains name.value then .error ⟨.rpcRepeated name.value, name⟩
            else .ok (s.addRpc rpc, .body)) ∧
        cursor.Past next)
      (rpc tokens cursor) := by
  obtain ⟨hconsume, hat⟩ := h.define ht hdefine
  rw [rpc, bind_of_ok hconsume]
  refine (ends_expect hat (fun _ => rfl) rfl fun _ => rfl).bind ?_
  rintro name afterName ⟨htoken, hname, hpast⟩
  refine (ends_expect hname (fun _ => rfl) rfl fun _ => rfl).bind ?_
  rintro bracket entry ⟨-, hinputs, hpast'⟩
  have hentry : cursor.Past entry := cursor.past_next.trans (hpast.trans hpast')
  have hread := ends_passes (fun input => ⟨s, .place (.input ⟨name, input⟩)⟩)
    (fun input later hat hlater => ends_inputPass hat (hlater.depth.trans hdepth)) hinputs hentry
  refine hread.bind ?_
  rintro input later ⟨houtput, hlater⟩
  obtain ⟨u, hu⟩ := At.sees houtput
  rw [bind_of_ok hu.peek_eq]
  by_cases hname' : u.kind.isName
  · rw [if_neg (by simpa using hname')]
    have hmention := ends_mention hu (Parser.startsType_output _) (fun _ => rfl) hname'
      (hlater.depth.trans hdepth)
    refine hmention.bind ?_
    rintro output next ⟨hdelivers, hnext⟩
    exact ⟨name, htoken, rfl, hdelivers, hlater.trans hnext⟩
  · rw [if_pos (by simpa using hname')]
    refine ends_fail hu (hu.reject ?_ rfl)
    simp [accept, hname']

-- The body of a scope ends before the brace that closes it, or before the end of the text.
structure BodyEnds (tokens : List Token) (outer : List Namespace) (entry : Cursor)
    (ns : Namespace) (next : Cursor) : Prop where
  sees : ∃ t, Sees tokens ⟨⟨ns, outer⟩, .place .body⟩ next t ∧
    (t.kind = .blockEnd ∨ t.kind = .endOfFile)
  index : entry.index ≤ next.index
  depth : next.depth = entry.depth

theorem BodyEnds.up {outer : List Namespace} {entry : Cursor} {ns : Namespace}
    (h : BodyEnds tokens outer entry.down ns next) : BodyEnds tokens outer entry ns next.up := by
  obtain ⟨t, ht, hkind⟩ := h.sees
  exact ⟨⟨t, ⟨ht.toAt.up, ht.token⟩, hkind⟩, h.index, Nat.sub_eq_of_eq_add h.depth⟩

def ReadsBody (tokens : List Token) (entry : Cursor) (body : Namespace → Reader Namespace) : Prop :=
  ∀ outer ns cursor, At tokens ⟨⟨ns, outer⟩, .place .body⟩ cursor → entry.index < cursor.index →
    cursor.depth = outer.length → Ends tokens (BodyEnds tokens outer cursor) (body ns cursor)

variable {body : Namespace → Reader Namespace} {outer : List Namespace} {ns : Namespace}

theorem ends_closeScope {entry : Cursor}
    (h : BodyEnds tokens (s.inner :: s.outer) entry ns cursor) :
    Ends tokens
      (fun _ next =>
        At tokens ⟨s.mapInner fun parent =>
          { parent with children := Namespace.addChild parent.children ns }, .place .body⟩
          (next.reporting (Namespace.addChildEvents s.inner.children ns)) ∧ cursor.Past next)
      (expect tokens .blockEnd (.blockUnclosed .scope) cursor) := by
  obtain ⟨t, ht, hclose | hend⟩ := h.sees
  · have hstep : Parser.step ⟨⟨ns, s.inner :: s.outer⟩, .place .body⟩ t =
        Parser.goto (s.mapInner fun parent =>
          { parent with children := Namespace.addChild parent.children ns }) .body := by
      simp [Parser.step, accept, hclose, Parser.closeScope, Scopes.close?, Scopes.mapInner]
    have hevents : Parser.events ⟨⟨ns, s.inner :: s.outer⟩, .place .body⟩ t =
        Namespace.addChildEvents s.inner.children ns := by
      simp [Parser.events, placeEvents, hclose, Scopes.closeEvents]
    have hnext := ht.step hstep
    rw [hevents] at hnext
    rw [expect, bind_of_ok ht.peek_eq, if_pos hclose, ht.consume_of_step hstep]
    exact ⟨hnext, cursor.past_next⟩
  · have hopen : t.kind ≠ .blockEnd := by rw [hend]; decide
    rw [expect, bind_of_ok ht.peek_eq, if_neg hopen]
    exact ends_fail ht (ht.finish hend)

theorem ends_scopeWith (h : Sees tokens ⟨s, .place .body⟩ cursor t) (ht : t.kind = .keyword)
    (hword : t.value = "namespace") (hdepth : cursor.depth = s.outer.length)
    (hbody : ReadsBody tokens cursor body) :
    Ends tokens
      (fun child next =>
        At tokens ⟨s.mapInner fun parent =>
          { parent with children := Namespace.addChild parent.children child }, .place .body⟩
          (next.reporting (Namespace.addChildEvents s.inner.children child)) ∧ cursor.Past next)
      (scopeWith tokens body cursor) := by
  rw [scopeWith, get_bind]
  split
  · next hlimit =>
    have hne : t.kind ≠ .endOfFile := by rw [ht]; decide
    have hdefine : s.define t = .error ⟨.namespacesTooDeep, t⟩ := by
      simp [Scopes.define, hword, ← hdepth, hlimit]
    refine ends_fail h (h.step_error hne ?_)
    simp [Parser.step, accept, ht, hdefine]
  · next hlimit =>
    have hdefine : s.define t = .ok (.blockName .scope) := by
      simp [Scopes.define, hword, ← hdepth, hlimit]
    refine (ends_blockStart h ht hdefine).bind ?_
    rintro name entry ⟨hentry, hpast⟩
    have hdepth' : entry.down.depth = (s.inner :: s.outer).length :=
      congrArg Nat.succ (hpast.depth.trans hdepth)
    have hread :=
      hbody (s.inner :: s.outer) (.ofName name) entry.down hentry.down hpast.index hdepth'
    refine (ends_deeper (Q := fun ns next => BodyEnds tokens (s.inner :: s.outer) entry ns next)
      (hread.imp ?_)).bind ?_
    · intro ns later hends
      exact hends.up
    · intro ns later hends
      refine (ends_closeScope hends).bind ?_
      rintro brace next ⟨hnext, hmoved⟩
      exact ⟨hnext, hpast.index.trans_le (hends.index.trans hmoved.index.le),
        hmoved.depth.trans (hends.depth.trans hpast.depth)⟩

theorem ends_definitionPass (hbody : ReadsBody tokens cursor body)
    (h : At tokens ⟨⟨ns, outer⟩, .place .body⟩ cursor) (hdepth : cursor.depth = outer.length) :
    Ends tokens
      (Sum.elim
        (fun ns next => At tokens ⟨⟨ns, outer⟩, .place .body⟩ next ∧ cursor.Past next)
        (BodyEnds tokens outer cursor))
      (definitionPass tokens body ns cursor) := by
  obtain ⟨t, ht⟩ := h.sees
  rw [definitionPass, bind_of_ok ht.peek_eq]
  split
  · next hkeyword =>
    have hne : t.kind ≠ .endOfFile := by rw [hkeyword]; decide
    generalize hword : t.value = word
    split
    · refine (ends_scopeWith ht hkeyword hword hdepth hbody).bind ?_
      rintro child next ⟨hnext, hpast⟩
      exact ⟨hnext, hpast.reporting _⟩
    · refine (ends_option ht hkeyword (by simp [Scopes.define, hword])).bind ?_
      rintro ⟨key, value⟩ next hnext
      exact hnext
    · refine (ends_record ht hkeyword (by simp [Scopes.define, hword]) hdepth).bind ?_
      intro type next hnext
      exact hnext
    · refine (ends_enum ht hkeyword (by simp [Scopes.define, hword])).bind ?_
      intro enum next hnext
      exact hnext
    · have hread := ends_rpc ht hkeyword (by simp [Scopes.define, hword]) hdepth
      have hsecond : ∃ name, tokens[cursor.index + 1]? = some name :=
        ⟨_, List.getElem?_eq_getElem (ht.next_inRange hne)⟩
      obtain ⟨name, hname⟩ := hsecond
      rw [bind_of_ok (lookahead_eq hname)]
      refine hread.bind ?_
      rintro rpc next ⟨name', hname', heq, hdelivers, hpast⟩
      obtain rfl : name = name' := Option.some.inj (hname.symm.trans hname')
      rw [heq]
      split
      · next hold =>
        rw [if_pos hold] at hdelivers
        exact hdelivers
      · next hnew =>
        rw [if_neg hnew] at hdelivers
        exact ⟨hdelivers, hpast⟩
    · have hdefine : Scopes.define ⟨ns, outer⟩ t = .error ⟨.unknownKeyword word, t⟩ := by
        simp [Scopes.define, hword]
      refine ends_fail ht (ht.step_error hne ?_)
      simp [Parser.step, accept, hkeyword, hdefine]
  · next hkeyword =>
    split
    · next hends => exact ⟨⟨t, ht, by simpa using hends⟩, le_rfl, rfl⟩
    · next hends =>
      have hends' : t.kind ≠ .blockEnd ∧ t.kind ≠ .endOfFile := by simpa using hends
      refine ends_fail ht (ht.step_error hends'.2 ?_)
      simp [Parser.step, accept, hkeyword, hends'.1, Parser.reject, Place.fault]

theorem ends_body (h : At tokens ⟨⟨ns, outer⟩, .place .body⟩ cursor)
    (hdepth : cursor.depth = outer.length) :
    Ends tokens (BodyEnds tokens outer cursor) (Descent.body tokens ns cursor) := by
  induction ns, cursor using body.induct tokens generalizing outer with
  | case1 ns entry ih =>
    rw [Descent.body]
    refine ends_loop
      (fun ns later => At tokens ⟨⟨ns, outer⟩, .place .body⟩ later ∧ entry.index ≤ later.index ∧
        later.depth = entry.depth) ?_ ⟨h, le_rfl, rfl⟩
    rintro ns later ⟨hat, hle, hsame⟩
    -- The body of a namespace stands behind its keyword, which no earlier pass has consumed.
    refine (ends_definitionPass ?_ hat (hsame.trans hdepth)).imp ?_
    · intro outer ns next hnext hlt hdepth
      have hprecedes : entry.Precedes tokens next := ⟨hle.trans_lt hlt, hnext.inRange⟩
      change Ends tokens _ (if entry.Precedes tokens next then _ else _)
      rw [if_pos hprecedes]
      exact ih ns next hprecedes hnext hdepth
    · rintro (ns | ns) next hnext
      · obtain ⟨hnext, hpast⟩ := hnext
        exact ⟨⟨hnext, hle.trans hpast.index.le, hpast.depth.trans hsame⟩, hpast.precedes hnext⟩
      · exact ⟨hnext.sees, hle.trans hnext.index, hnext.depth.trans hsame⟩

theorem ends_schema (h : At tokens .initial ⟨0, 0, []⟩) :
    Ends tokens (fun root next => parseTokens tokens = ⟨.ok root, next.reported.reverse⟩)
      (schema tokens ⟨0, 0, []⟩) := by
  have hbody : Ends tokens (BodyEnds tokens [] ⟨0, 0, []⟩) (Descent.body tokens .root ⟨0, 0, []⟩) :=
    ends_body h rfl
  refine hbody.bind ?_
  intro root next hends
  obtain ⟨t, ht, hclose | hend⟩ := hends.sees
  · have hne : t.kind ≠ .endOfFile := by rw [hclose]; decide
    rw [bind_of_ok ht.peek_eq, if_neg hne]
    refine ends_fail ht (ht.step_error hne ?_)
    simp [Parser.step, accept, hclose, Parser.closeScope, Scopes.close?]
  · rw [bind_of_ok ht.peek_eq, if_pos hend]
    exact ht.finish hend

end Descent

theorem terminated_cases (tokens : List Token) :
    (terminated tokens = tokens ∧ ∃ t ∈ tokens.getLast?, t.kind = .endOfFile) ∨
      terminated tokens = tokens ++ [endOfTokens tokens] := by
  unfold terminated
  split
  · next hnone =>
    right
    rw [List.getLast?_eq_none_iff.mp hnone]
    rfl
  · next last hlast =>
    split
    · next hend => exact .inl ⟨rfl, last, hlast, hend⟩
    · exact .inr rfl

theorem parseTokens_terminated (tokens : List Token) :
    parseTokens (terminated tokens) = parseTokens tokens := by
  obtain ⟨heq, -⟩ | heq := terminated_cases tokens
  · rw [heq]
  · rw [heq, parseTokens_append_endOfTokens]

theorem getLast?_terminated (tokens : List Token) :
    ∃ t ∈ (terminated tokens).getLast?, t.kind = .endOfFile := by
  obtain ⟨heq, hlast⟩ | heq := terminated_cases tokens
  · rwa [heq]
  · rw [heq, List.getLast?_concat]
    exact ⟨_, rfl, kind_endOfTokens tokens⟩

namespace Descent

theorem at_initial (tokens : List Token) : At (terminated tokens) .initial ⟨0, 0, []⟩ := by
  obtain ⟨last, hlast, hend⟩ := getLast?_terminated tokens
  refine ⟨fun t ht => Option.mem_unique ht hlast ▸ hend, ?_, rfl⟩
  exact List.length_pos_of_mem (List.mem_of_getLast? hlast)

theorem parse_eq (tokens : List Token) : parse tokens = .ok (parseTokens tokens) := by
  have hends := ends_schema (at_initial tokens)
  rw [parse, ← parseTokens_terminated]
  split
  · next root next hroot =>
    rw [hroot] at hends
    exact congrArg Except.ok hends.symm
  · next error events hfailed =>
    rw [hfailed] at hends
    exact congrArg Except.ok hends.symm
  · next breach hbroken =>
    rw [hbroken] at hends
    exact hends.elim

end Descent

def upToEnd : List Token → List Token
  | [] => []
  | t :: rest => if t.kind = .endOfFile then [t] else t :: upToEnd rest

theorem upToEnd_of_ne_endOfFile {tokens : List Token} (h : ∀ t ∈ tokens, t.kind ≠ .endOfFile) :
    upToEnd tokens = tokens := by
  induction tokens with
  | nil => rfl
  | cons t rest ih =>
    obtain ⟨ht, hrest⟩ := List.forall_mem_cons.mp h
    rw [upToEnd, if_neg ht, ih hrest]

-- The token that stands for the end matters only where the tokens have none.
theorem Parser.run_upToEnd {last other : Token} {tokens : List Token}
    (h : (∀ t ∈ tokens, t.kind ≠ .endOfFile) → other = last) (p : Parser)
    (reported : List Event) :
    p.run other reported (upToEnd tokens) = p.run last reported tokens := by
  induction tokens generalizing p reported with
  | nil => rw [h (List.forall_mem_nil _), upToEnd]
  | cons t rest ih =>
    by_cases ht : t.kind = .endOfFile
    · rw [upToEnd, if_pos ht, run, run, if_pos ht, if_pos ht]
    · have hrest : (∀ u ∈ rest, u.kind ≠ .endOfFile) → other = last := fun hne =>
        h (List.forall_mem_cons.mpr ⟨ht, hne⟩)
      rw [upToEnd, if_neg ht, run, run, if_neg ht, if_neg ht]
      split
      · rfl
      · exact ih hrest _ _

theorem parseTokens_upToEnd (tokens : List Token) :
    parseTokens (upToEnd tokens) = parseTokens tokens :=
  Parser.run_upToEnd (fun h => by rw [upToEnd_of_ne_endOfFile h]) _ _

theorem Descent.parse_makes_progress (tokens : List Token) :
    (∀ breach, Descent.parse tokens ≠ .error breach) ∧
      Descent.parse tokens = .ok (parseTokens tokens) ∧
      parseTokens (upToEnd tokens) = parseTokens tokens := by
  have hparse := Descent.parse_eq tokens
  refine ⟨fun breach hbreach => ?_, hparse, parseTokens_upToEnd tokens⟩
  rw [hparse] at hbreach
  cases hbreach

end InterfaceSchema

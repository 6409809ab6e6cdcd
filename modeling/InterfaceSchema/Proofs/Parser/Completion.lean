import InterfaceSchema.Proofs.Parser.Recognition
import Mathlib.Data.Fintype.EquivFin

namespace InterfaceSchema

def Slot.rpc? : Slot → Option Token
  | .property _ => none
  | .input signature => some signature.name
  | .output signature => some signature.name

def Place.rpc? : Place → Option Token
  | .inputs name => some name
  | .input signature => some signature.name
  | .inputEnd signature => some signature.name
  | .output signature => some signature.name
  | .argument slot _ _ => slot.rpc?
  | .argumentEnd slot _ _ => slot.rpc?
  | _ => none

def Focus.rpc? : Focus → Option Token
  | .place here => here.rpc?
  | .typeName slot _ _ => slot.rpc?

theorem NameMap.exists_not_contains {α : Type} (m : NameMap α) :
    ∃ name, m.contains name = false := by
  obtain ⟨name, hname⟩ := Infinite.exists_notMem_finset m.keys.toFinset
  refine ⟨name, ?_⟩
  rw [not_contains_iff, get?, List.lookup_eq_none_iff]
  intro entry hentry
  rw [bne_iff_ne]
  rintro rfl
  exact hname (List.mem_toFinset.mpr (List.mem_map_of_mem hentry))

namespace Parser

theorem accept_misplaced (s : Scopes) (place : Place) {t : Token}
    (ht : t.kind = .typeArgumentsStart ∨ t.kind = .endOfFile) :
    accept s place t = reject place t := by
  rcases ht with ht | ht <;> cases place <;> simp [accept, ht, TokenKind.isName]

theorem step_ne_endOfFile {p q : Parser} {t : Token} (h : p.step t = .ok q) :
    t.kind ≠ .endOfFile := by
  intro ht
  have hopen : t.kind ≠ .typeArgumentsStart := by simp [ht]
  cases hsettle : p.settle with
  | error error =>
      rw [step_of_settle_error hsettle hopen] at h
      cases h
  | ok result =>
      rw [step_of_settle hsettle hopen, accept_misplaced _ _ (.inr ht)] at h
      cases h

theorem ne_endOfFile_of_outcome {p : Parser} {ts : List Token} {result : Scopes × Place}
    (h : p.outcome ts = .ok result) : ∀ t ∈ ts, t.kind ≠ .endOfFile := by
  induction ts generalizing p with
  | nil => simp
  | cons t ts ih =>
      rw [outcome] at h
      cases hstep : p.step t with
      | error error => simp [hstep] at h
      | ok next =>
          exact List.forall_mem_cons.mpr
            ⟨step_ne_endOfFile hstep, ih (by simpa [hstep] using h)⟩

def Completable (p : Parser) : Prop :=
  ∃ more root, p.outcome more = .ok (⟨root, []⟩, .body)

namespace Completable

theorem of_step {p q : Parser} (t : Token) (hstep : p.step t = .ok q) (h : q.Completable) :
    p.Completable := by
  obtain ⟨more, root, houtcome⟩ := h
  exact ⟨t :: more, root, (outcome_cons_of_step more hstep).trans houtcome⟩

theorem of_accept {s s' : Scopes} {place place' : Place} (t : Token)
    (hgoto : accept s place t = goto s' place') (h : Completable ⟨s', .place place'⟩) :
    Completable ⟨s, .place place⟩ :=
  of_step t hgoto h

theorem of_settle {p : Parser} {s : Scopes} {place : Place} (hsettle : p.settle = .ok (s, place))
    (h : Completable ⟨s, .place place⟩) : p.Completable := by
  obtain ⟨more, root, houtcome⟩ := h
  refine ⟨more, root, ?_⟩
  cases more with
  | nil =>
      cases houtcome
      exact hsettle
  | cons t more =>
      have ht : t.kind ≠ .typeArgumentsStart := by
        intro ht
        have hreject : step ⟨s, .place place⟩ t = reject place t :=
          accept_misplaced s place (.inl ht)
        simp [outcome, hreject, reject] at houtcome
      rw [← houtcome, outcome, outcome, step_of_settle hsettle ht]
      rfl

end Completable

theorem completable_body (s : Scopes) : Completable ⟨s, .place .body⟩ := by
  obtain ⟨inner, outer⟩ := s
  induction outer generalizing inner with
  | nil => exact ⟨[], inner, rfl⟩
  | cons parent outer ih =>
      exact .of_accept ⟨.blockEnd, "\x7d", .origin, 0⟩ rfl (ih _)

theorem completable_property (s : Scopes) (record : RecordType) :
    Completable ⟨s, .place (.property record)⟩ :=
  .of_accept ⟨.blockEnd, "\x7d", .origin, 0⟩ rfl (completable_body _)

theorem completable_propertyName (s : Scopes) (record : RecordType) (type : TypeRef) :
    Completable ⟨s, .place (.propertyName record type)⟩ := by
  obtain ⟨name, hname⟩ := record.properties.exists_not_contains
  have hadd : accept s (.propertyName record type) ⟨.identifier, name, .origin, 0⟩ =
      goto s (.property (record.addProperty ⟨name, type⟩)) := by
    simp [accept, TokenKind.isName, addProperty, hname]
  exact .of_accept _ hadd (completable_property s _)

theorem deliver_output {s : Scopes} {signature : Signature}
    (hnew : s.inner.rpcs.contains signature.name.value = false) (type : TypeRef) :
    s.deliver (.output signature) [] type =
      .ok (s.addRpc ⟨signature.name.value, signature.input, [type]⟩, .body) := by
  simp [Scopes.deliver, hnew]

theorem completable_output {s : Scopes} {signature : Signature}
    (hnew : s.inner.rpcs.contains signature.name.value = false) :
    Completable ⟨s, .place (.output signature)⟩ :=
  .of_step ⟨.identifier, "t", .origin, 0⟩ rfl
    (.of_settle (deliver_output hnew ⟨"t", []⟩) (completable_body _))

theorem completable_inputEnd {s : Scopes} {signature : Signature}
    (hnew : s.inner.rpcs.contains signature.name.value = false) :
    Completable ⟨s, .place (.inputEnd signature)⟩ :=
  .of_accept ⟨.argumentsEnd, ")", .origin, 0⟩ rfl (completable_output hnew)

theorem completable_input {s : Scopes} {signature : Signature}
    (hnew : s.inner.rpcs.contains signature.name.value = false) :
    Completable ⟨s, .place (.input signature)⟩ :=
  .of_accept ⟨.argumentsEnd, ")", .origin, 0⟩ rfl (completable_output hnew)

theorem completable_inputs {s : Scopes} {name : Token}
    (hnew : s.inner.rpcs.contains name.value = false) :
    Completable ⟨s, .place (.inputs name)⟩ :=
  .of_accept ⟨.argumentsStart, "(", .origin, 0⟩ rfl (completable_input hnew)

theorem exists_completable_deliver {s : Scopes} {slot : Slot}
    (hnew : ∀ name ∈ slot.rpc?, s.inner.rpcs.contains name.value = false)
    (lists : List ArgumentList) (type : TypeRef) :
    ∃ s' place, s.deliver slot lists type = .ok (s', place) ∧
      Completable ⟨s', .place place⟩ := by
  induction lists generalizing type with
  | nil =>
      cases slot with
      | property record => exact ⟨_, _, rfl, completable_propertyName s record type⟩
      | input signature =>
          exact ⟨_, _, rfl, completable_inputEnd (hnew signature.name rfl)⟩
      | output signature =>
          exact ⟨_, _, deliver_output (hnew signature.name rfl) type, completable_body _⟩
  | cons inner outer ih =>
      obtain ⟨s', place, hdeliver, hcomplete⟩ := ih ⟨inner.name, inner.arguments ++ [type]⟩
      refine ⟨s, .argumentEnd slot (inner.push type) outer, rfl, ?_⟩
      refine .of_accept ⟨.typeArgumentsEnd, ">", .origin, 0⟩ ?_ hcomplete
      simp [accept, ArgumentList.push, hdeliver]

theorem completable_place {s : Scopes} {place : Place}
    (hnew : ∀ name ∈ place.rpc?, s.inner.rpcs.contains name.value = false) :
    Completable ⟨s, .place place⟩ := by
  have hmember (enum : EnumType) : Completable ⟨s, .place (.member enum)⟩ :=
    .of_accept ⟨.blockEnd, "\x7d", .origin, 0⟩ rfl (completable_body _)
  have hblock (kind : BlockKind) (name : String) : Completable ⟨s, .place (.block kind name)⟩ := by
    refine .of_accept ⟨.blockStart, "\x7b", .origin, 0⟩ rfl ?_
    cases kind with
    | scope => exact completable_body _
    | type => exact completable_property _ _
    | enum => exact hmember _
  have hoption (key : String) : Completable ⟨s, .place (.optionValue key)⟩ :=
    .of_accept ⟨.stringValue, "", .origin, 0⟩ rfl (completable_body _)
  cases place with
  | body => exact completable_body s
  | blockName kind =>
      exact .of_accept ⟨.identifier, "n", .origin, 0⟩ rfl (hblock kind "n")
  | block kind name => exact hblock kind name
  | optionName => exact .of_accept ⟨.identifier, "n", .origin, 0⟩ rfl (hoption "n")
  | optionValue key => exact hoption key
  | property record => exact completable_property s record
  | propertyName record type => exact completable_propertyName s record type
  | member enum => exact hmember enum
  | rpcName =>
      obtain ⟨name, hname⟩ := s.inner.rpcs.exists_not_contains
      exact .of_accept ⟨.identifier, name, .origin, 0⟩ rfl (completable_inputs hname)
  | inputs name => exact completable_inputs (hnew name rfl)
  | input signature => exact completable_input (hnew signature.name rfl)
  | inputEnd signature => exact completable_inputEnd (hnew signature.name rfl)
  | output signature => exact completable_output (hnew signature.name rfl)
  | argument slot inner outer =>
      obtain ⟨s', place, hdeliver, hcomplete⟩ :=
        exists_completable_deliver hnew (inner :: outer) ⟨"t", []⟩
      exact .of_step ⟨.identifier, "t", .origin, 0⟩ rfl (.of_settle hdeliver hcomplete)
  | argumentEnd slot inner outer =>
      obtain ⟨s', place, hdeliver, hcomplete⟩ :=
        exists_completable_deliver hnew outer ⟨inner.name, inner.arguments⟩
      refine .of_accept ⟨.typeArgumentsEnd, ">", .origin, 0⟩ ?_ hcomplete
      simp [accept, hdeliver]

structure Repeats (p : Parser) (name : Token) : Prop where
  reads : p.focus.rpc? = some name
  declared : p.scopes.inner.rpcs.contains name.value = true

theorem completable_of_not_repeats {p : Parser} (h : ∀ name, ¬ p.Repeats name) :
    p.Completable := by
  have hnew : ∀ name ∈ p.focus.rpc?, p.scopes.inner.rpcs.contains name.value = false :=
    fun name hname => Bool.eq_false_iff.mpr fun hcontains => h name ⟨hname, hcontains⟩
  obtain ⟨s, focus⟩ := p
  cases focus with
  | place place => exact completable_place hnew
  | typeName slot lists name =>
      obtain ⟨s', place, hdeliver, hcomplete⟩ := exists_completable_deliver hnew lists ⟨name, []⟩
      exact .of_settle hdeliver hcomplete

namespace Repeats

variable {s s' : Scopes} {slot : Slot} {lists : List ArgumentList} {type : TypeRef}
  {place : Place} {p q : Parser} {t name : Token}

theorem deliver_iff (h : s.deliver slot lists type = .ok (s', place)) :
    Repeats ⟨s', .place place⟩ name ↔
      slot.rpc? = some name ∧ s.inner.rpcs.contains name.value = true := by
  cases lists with
  | cons inner outer =>
      cases h
      exact ⟨fun hp => ⟨hp.reads, hp.declared⟩, fun hp => ⟨hp.1, hp.2⟩⟩
  | nil =>
      cases slot with
      | property record =>
          cases h
          constructor
          · intro hp
            cases hp.reads
          · intro hp
            cases hp.1
      | input signature =>
          cases h
          exact ⟨fun hp => ⟨hp.reads, hp.declared⟩, fun hp => ⟨hp.1, hp.2⟩⟩
      | output signature =>
          simp only [Scopes.deliver] at h
          split at h
          · cases h
          · next hnew =>
              cases h
              constructor
              · intro hp
                cases hp.reads
              · rintro ⟨hname, hdeclared⟩
                cases hname
                exact absurd hdeclared hnew

theorem of_deliver_error {error : ParseError} (h : s.deliver slot lists type = .error error) :
    slot.rpc? = some error.token ∧ s.inner.rpcs.contains error.token.value = true := by
  cases lists with
  | cons inner outer => cases h
  | nil =>
      cases slot with
      | property record => cases h
      | input signature => cases h
      | output signature =>
          simp only [Scopes.deliver] at h
          split at h
          · next hdeclared =>
              cases h
              exact ⟨rfl, hdeclared⟩
          · cases h

theorem settle_iff (h : p.settle = .ok (s, place)) :
    Repeats ⟨s, .place place⟩ name ↔ p.Repeats name := by
  obtain ⟨scopes, focus⟩ := p
  cases focus with
  | place other =>
      cases h
      rfl
  | typeName slot lists word =>
      exact (deliver_iff h).trans ⟨fun hp => ⟨hp.1, hp.2⟩, fun hp => ⟨hp.reads, hp.declared⟩⟩

theorem of_settle_error {error : ParseError} (h : p.settle = .error error) :
    p.Repeats error.token := by
  obtain ⟨s, focus⟩ := p
  cases focus with
  | place place => cases h
  | typeName slot lists word =>
      obtain ⟨hslot, hdeclared⟩ := of_deliver_error h
      exact ⟨hslot, hdeclared⟩

theorem accept (hp : Repeats ⟨s, .place place⟩ name) (h : Parser.accept s place t = .ok q) :
    q.Repeats name := by
  obtain ⟨hreads, hdeclared⟩ := hp
  cases place with
  | inputs _ | output _ | argument _ _ _ =>
      simp only [Parser.accept] at h
      split at h <;> cases h
      exact ⟨hreads, hdeclared⟩
  | input _ | inputEnd _ =>
      simp only [Parser.accept] at h
      split at h
      · cases h
        exact ⟨hreads, hdeclared⟩
      · split at h <;> cases h
        exact ⟨hreads, hdeclared⟩
  | argumentEnd slot inner outer =>
      simp only [Parser.accept] at h
      split at h
      · cases h
        exact ⟨hreads, hdeclared⟩
      · split at h
        · split at h
          · cases h
          · next hdeliver =>
              cases h
              exact (deliver_iff hdeliver).mpr ⟨hreads, hdeclared⟩
        · cases h
  | _ => cases hreads

theorem step (hp : p.Repeats name) (h : p.step t = .ok q) : q.Repeats name := by
  by_cases ht : t.kind = .typeArgumentsStart
  · obtain ⟨s, focus⟩ := p
    cases focus with
    | place place => exact accept hp h
    | typeName slot lists word =>
        simp only [Parser.step, ht, if_pos, openArguments] at h
        split at h <;> cases h
        exact ⟨hp.reads, hp.declared⟩
  · cases hsettle : p.settle with
    | error error =>
        rw [step_of_settle_error hsettle ht] at h
        cases h
    | ok result =>
        rw [step_of_settle hsettle ht] at h
        exact ((settle_iff hsettle).mpr hp).accept h

theorem finish_ne_ok (hp : p.Repeats name) (root : Namespace) : p.finish t ≠ .ok root := by
  rw [finish_eq_settle]
  cases hsettle : p.settle with
  | error error => simp
  | ok result =>
      obtain ⟨s, place⟩ := result
      have hreads := ((settle_iff hsettle).mpr hp).reads
      intro h
      obtain ⟨rfl, -⟩ := finishAt_eq_ok_iff.mp h
      cases hreads

theorem run_ne_ok (hp : p.Repeats name) (last : Token) (reported : List Event)
    (ts : List Token) (root : Namespace) : (p.run last reported ts).value ≠ .ok root := by
  induction ts generalizing p reported with
  | nil => exact hp.finish_ne_ok root
  | cons t ts ih =>
      rw [run]
      split
      · exact hp.finish_ne_ok root
      · cases hstep : p.step t with
        | error error => simp
        | ok next => exact ih (hp.step hstep) _

end Repeats

end Parser

end InterfaceSchema

import InterfaceSchema.Proofs.Parser.Recognition
import InterfaceSchema.Proofs.Schema.Conservation
import InterfaceSchema.Proofs.Schema.Denotation

namespace InterfaceSchema

mutual

def Item.rpcPlaces : Item → List (List String × String)
  | .scope name body => (rpcPlacesAll body).map (Prod.map (name :: ·) id)
  | .rpc name _ _ => [([], name)]
  | _ => []

def Item.rpcPlacesAll : List Item → List (List String × String)
  | [] => []
  | item :: items => item.rpcPlaces ++ rpcPlacesAll items

end

namespace Parser

def reports (p : Parser) : List Token → List Event
  | [] => []
  | t :: ts =>
      match p.step t with
      | .error _ => []
      | .ok next => p.events t ++ next.reports ts

theorem run_events {last eof : Token} (heof : eof.kind = .endOfFile) {ts : List Token}
    (hts : ∀ t ∈ ts, t.kind ≠ .endOfFile) (p : Parser) (reported : List Event) :
    (p.run last reported (ts ++ [eof])).events = reported.reverse ++ p.reports ts := by
  induction ts generalizing p reported with
  | nil => simp [run, heof, reports]
  | cons t ts ih =>
    obtain ⟨ht, hrest⟩ := List.forall_mem_cons.mp hts
    rw [List.cons_append, run, if_neg ht, reports]
    cases p.step t with
    | error error => simp
    | ok next => simp [ih hrest]

theorem events_of_settle {p : Parser} {s : Scopes} {place : Place} {t : Token}
    (h : p.settle = .ok (s, place)) (ht : t.kind ≠ .typeArgumentsStart) :
    p.events t = placeEvents s place t := by
  obtain ⟨scopes, focus⟩ := p
  cases focus with
  | place other =>
    obtain ⟨rfl, rfl⟩ : scopes = s ∧ other = place := by simpa [settle] using h
    rfl
  | typeName slot lists name =>
    change scopes.deliver slot lists ⟨name, []⟩ = _ at h
    simp [events, ht, h]

theorem reports_goto {s s' : Scopes} {place place' : Place} {t : Token} (ts : List Token)
    (h : accept s place t = goto s' place') :
    reports ⟨s, .place place⟩ (t :: ts) =
      placeEvents s place t ++ reports ⟨s', .place place'⟩ ts := by
  have hstep : step ⟨s, .place place⟩ t = .ok ⟨s', .place place'⟩ := h
  rw [reports, hstep]
  rfl

theorem reports_append {p : Parser} {ts us : List Token} {s : Scopes} {place : Place}
    (h : p.outcome ts = .ok (s, place)) (hus : ∀ t ∈ us.head?, t.kind ≠ .typeArgumentsStart) :
    p.reports (ts ++ us) = p.reports ts ++ reports ⟨s, .place place⟩ us := by
  induction ts generalizing p with
  | nil =>
    cases us with
    | nil => rfl
    | cons t us =>
      have ht := hus t rfl
      have hevents : events ⟨s, .place place⟩ t = placeEvents s place t := rfl
      rw [List.nil_append, reports, reports, reports, List.nil_append, step_of_settle h ht,
        events_of_settle h ht, hevents]
      rfl
  | cons t ts ih =>
    rw [outcome] at h
    rw [List.cons_append, reports, reports]
    cases hstep : p.step t with
    | error error => simp [hstep] at h
    | ok next =>
      rw [hstep] at h
      simp only [ih h, List.append_assoc]

theorem droppedRpcs_placeEvents {s : Scopes} {place : Place} {t : Token}
    (h : t.kind ≠ .blockEnd) : droppedRpcs (placeEvents s place t) = 0 := by
  unfold placeEvents
  split
  · rw [if_neg h]
    rfl
  · split <;> rfl
  · rfl

theorem droppedRpcs_events {p : Parser} {t : Token} (h : t.kind ≠ .blockEnd) :
    droppedRpcs (p.events t) = 0 := by
  unfold events
  split
  · exact droppedRpcs_placeEvents h
  · split
    · rfl
    · split
      · rfl
      · exact droppedRpcs_placeEvents h

theorem droppedRpcs_reports {p : Parser} {ts : List Token} (h : ∀ t ∈ ts, t.kind ≠ .blockEnd) :
    droppedRpcs (p.reports ts) = 0 := by
  induction ts generalizing p with
  | nil => rfl
  | cons t ts ih =>
    obtain ⟨ht, hrest⟩ := List.forall_mem_cons.mp h
    rw [reports]
    cases p.step t with
    | error error => rfl
    | ok next => rw [droppedRpcs_append, droppedRpcs_events ht, ih hrest]

end Parser

namespace Grammar

open InterfaceSchema.Parser

mutual

theorem Mention.ne_blockEnd {ts : List Token} {type : TypeRef} (h : Mention ts type) :
    ∀ t ∈ ts, t.kind ≠ .blockEnd := by
  cases h with
  | name hn => simpa using TokenKind.ne_of_isName hn .blockEnd rfl
  | applied hn ho harguments hc =>
    simpa [ho, hc, TokenKind.ne_of_isName hn .blockEnd rfl, or_imp, forall_and]
      using harguments.ne_blockEnd

theorem Arguments.ne_blockEnd {ts : List Token} {types : List TypeRef} (h : Arguments ts types) :
    ∀ t ∈ ts, t.kind ≠ .blockEnd := by
  cases h with
  | one hmention => exact hmention.ne_blockEnd
  | more hmention hs harguments =>
    simpa [hs, or_imp, forall_and] using ⟨hmention.ne_blockEnd, harguments.ne_blockEnd⟩

end

theorem Inputs.ne_blockEnd {ts : List Token} {types : List TypeRef} (h : Inputs ts types) :
    ∀ t ∈ ts, t.kind ≠ .blockEnd := by
  cases h with
  | none => simp
  | some harguments => exact harguments.ne_blockEnd
  | trailing harguments hs =>
    simpa [hs, or_imp, forall_and] using harguments.ne_blockEnd

theorem Properties.ne_blockEnd {ts : List Token} {properties : List Property}
    (h : Properties ts properties) : ∀ t ∈ ts, t.kind ≠ .blockEnd := by
  induction h with
  | nil => simp
  | more hmention hn _ ih =>
    simpa [TokenKind.ne_of_isName hn .blockEnd rfl, or_imp, forall_and]
      using ⟨hmention.ne_blockEnd, ih⟩

theorem Members.ne_blockEnd {ts : List Token} {members : List String} (h : Members ts members) :
    ∀ t ∈ ts, t.kind ≠ .blockEnd := by
  induction h with
  | nil => simp
  | more hn _ ih => simpa [TokenKind.ne_of_isName hn .blockEnd rfl] using ih

theorem droppedRpcs_reports_block {s : Scopes} {k n o c : Token} {kind : BlockKind}
    {ts : List Token} {s' : Scopes} {place : Place} (hk : k.kind = .keyword)
    (hblock : accept s .body k = goto s (.blockName kind)) (hn : n.kind = .identifier)
    (ho : o.kind = .blockStart) (hc : c.kind = .blockEnd)
    (hread : outcome ⟨(s.enterBlock kind n.value).1, .place (s.enterBlock kind n.value).2⟩ ts =
      .ok (s', place)) :
    droppedRpcs (reports ⟨s, .place .body⟩ (k :: n :: o :: (ts ++ [c]))) =
      droppedRpcs (reports
        ⟨(s.enterBlock kind n.value).1, .place (s.enterBlock kind n.value).2⟩ ts) +
        droppedRpcs (reports ⟨s', .place place⟩ [c]) := by
  have hname : accept s (.blockName kind) n = goto s (.block kind n.value) := by
    simp [accept, hn]
  have hopen : accept s (.block kind n.value) o =
      goto (s.enterBlock kind n.value).1 (s.enterBlock kind n.value).2 := by
    simp [accept, ho]
  rw [reports_goto _ hblock, reports_goto _ hname, reports_goto _ hopen,
    reports_append hread (ne_typeArgumentsStart hc (by decide) [])]
  simp only [droppedRpcs_append]
  rw [droppedRpcs_placeEvents (by simp [hk]), droppedRpcs_placeEvents (by simp [hn]),
    droppedRpcs_placeEvents (by simp [ho])]
  omega

mutual

theorem Definition.rpcCount_declare {ts : List Token} {item : Item} (h : Definition ts item) :
    ∀ {s : Scopes}, s.inner.Sound → item.Distinct → s.outer.length + item.depth ≤ nestingLimit →
      (∀ name, item.rpcName? = some name → s.inner.rpcs.contains name = false) →
      (s.inner.declare item).rpcCount + droppedRpcs (reports ⟨s, .place .body⟩ ts) =
        s.inner.rpcCount + item.rpcPlaces.length := by
  cases h with
  | @scope k n o c ts body hk hn ho hbody hc =>
    intro s hs hdistinct hdepth _
    rw [Item.depth] at hdepth
    rw [Item.Distinct] at hdistinct
    have hlt : s.outer.length ≠ nestingLimit := by omega
    have hdefine : s.define ⟨.keyword, "namespace", k.pos, k.len⟩ = .ok (.blockName .scope) := by
      simp [Scopes.define, hlt]
    have hlevel : (s.openScope n.value).outer.length + Item.depthAll body ≤ nestingLimit := by
      simp only [Scopes.openScope, List.length_cons]
      omega
    have hread := @Body.outcome_eq _ _ hbody (s.openScope n.value) hdistinct.1 hdistinct.2 hlevel
      (fun name _ => rfl)
    have hcount := @Body.rpcCount_declareAll _ _ hbody (s.openScope n.value)
      (.ofName n.value) hdistinct.1 hdistinct.2 hlevel (fun name _ => rfl)
    have hclose : reports ⟨(s.openScope n.value).mapInner (·.declareAll body), .place .body⟩ [c] =
        Namespace.addChildEvents s.inner.children
          ((Namespace.ofName n.value).declareAll body) := by
      simp [reports, step, accept, hc, closeScope, Scopes.close?, Scopes.mapInner,
        Scopes.openScope, goto, events, placeEvents, Scopes.closeEvents]
    have hchild := Namespace.sound_declareAll body (.ofName n.value)
    have hadd := Namespace.weigh_addChild hs.wellFormed.orderedBelow hchild.wellFormed.conserves
    rw [droppedRpcs_reports_block hk.1 (accept_announced hk hdefine) hn ho hc hread]
    simp only [Scopes.enterBlock]
    rw [hclose, Namespace.declare, Namespace.rpcCount_eq, Namespace.rpcCount_eq s.inner,
      Item.rpcPlaces, List.length_map]
    simp only [Scopes.openScope, Namespace.rpcCount_ofName] at hcount ⊢
    omega
  | @option k n v hk hn hv =>
    intro s _ _ _ _
    rw [droppedRpcs_reports (by rcases hv with hv | hv <;> simp [hk.1, hn, hv])]
    exact congrArg List.length (Namespace.rpcPlaces_congr rfl rfl)
  | @type k n o c ts properties hk hn ho hproperties hc =>
    intro s _ hdistinct hdepth _
    rw [Item.depth] at hdepth
    rw [Item.Distinct] at hdistinct
    have hread := @Properties.outcome_eq _ _ hproperties s (.ofName n.value) hdepth hdistinct
      (fun property _ => rfl)
    have hclose (record : RecordType) : reports ⟨s, .place (.property record)⟩ [c] = [] := by
      simp [reports, step, accept, hc, TokenKind.isName, goto, events, placeEvents]
    rw [droppedRpcs_reports_block hk.1 (accept_announced hk rfl) hn ho hc hread, hclose,
      droppedRpcs_reports hproperties.ne_blockEnd]
    exact congrArg List.length (Namespace.rpcPlaces_congr rfl rfl)
  | @enum k n o c ts members hk hn ho hmembers hc =>
    intro s _ _ _ _
    have hread := @Members.outcome_eq _ _ hmembers s (.ofName n.value)
    have hclose (enum : EnumType) : reports ⟨s, .place (.member enum)⟩ [c] = [] := by
      simp [reports, step, accept, hc, TokenKind.isName, goto, events, placeEvents]
    rw [droppedRpcs_reports_block hk.1 (accept_announced hk rfl) hn ho hc hread, hclose,
      droppedRpcs_reports hmembers.ne_blockEnd]
    exact congrArg List.length (Namespace.rpcPlaces_congr rfl rfl)
  | @rpc k n o c ts us input output hk hn ho hinputs hc houtput =>
    intro s _ _ _ hnew
    have hsilent : ∀ t ∈ k :: n :: o :: (ts ++ c :: us), t.kind ≠ .blockEnd := by
      simpa [hk.1, hn, ho, hc, or_imp, forall_and] using
        ⟨hinputs.ne_blockEnd, houtput.ne_blockEnd⟩
    have hnone := NameMap.not_contains_iff.mp (hnew n.value rfl)
    rw [droppedRpcs_reports hsilent, Namespace.declare, Namespace.rpcCount_eq,
      Namespace.rpcCount_eq s.inner]
    simp only [NameMap.size_eq_weigh, NameMap.weigh_insert_of_get?_eq_none _ hnone,
      Item.rpcPlaces, List.length_singleton]
    omega

theorem Body.rpcCount_declareAll {ts : List Token} {items : List Item} (h : Body ts items) :
    ∀ {s : Scopes}, s.inner.Sound → (Item.rpcNames items).Nodup → Item.DistinctAll items →
      s.outer.length + Item.depthAll items ≤ nestingLimit →
      (∀ name ∈ Item.rpcNames items, s.inner.rpcs.contains name = false) →
      (s.inner.declareAll items).rpcCount + droppedRpcs (reports ⟨s, .place .body⟩ ts) =
        s.inner.rpcCount + (Item.rpcPlacesAll items).length := by
  cases h with
  | nil =>
    intro s _ _ _ _ _
    rw [Namespace.declareAll]
    rfl
  | @more ts us item items hitem hitems =>
    intro s hs hnodup hdistinct hdepth hnew
    rw [Item.depthAll] at hdepth
    rw [Item.DistinctAll] at hdistinct
    rw [Item.nodup_rpcNames_cons] at hnodup
    have hfresh := fun name hname => hnew name (Item.mem_rpcNames_cons.mpr (.inl hname))
    have hread := @Definition.outcome_eq _ _ hitem s hdistinct.1 (by omega) hfresh
    have hfirst := @Definition.rpcCount_declare _ _ hitem s hs hdistinct.1 (by omega) hfresh
    have hrest := @Body.rpcCount_declareAll _ _ hitems (s.mapInner (·.declare item))
      (Namespace.sound_declare item hs) hnodup.2 hdistinct.2
      (by simp only [Scopes.mapInner]; omega) (Namespace.not_contains_declare_rpcs hnodup.1 hnew)
    rw [reports_append hread hitems.head_ne, droppedRpcs_append, Namespace.declareAll,
      Item.rpcPlacesAll, List.length_append]
    simp only [Scopes.mapInner] at hrest ⊢
    omega

end

end Grammar

end InterfaceSchema

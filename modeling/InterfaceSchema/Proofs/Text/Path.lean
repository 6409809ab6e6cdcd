import InterfaceSchema.Text.Naming
import InterfaceSchema.Proofs.Lists
import Mathlib.Data.List.DropRight

namespace InterfaceSchema.Text

structure PlainSegment (s : String) : Prop where
  ne_empty : s ≠ ""
  slash_not_mem : '/' ∉ s.toList

instance (s : String) : Decidable (PlainSegment s) :=
  decidable_of_iff (s ≠ "" ∧ '/' ∉ s.toList) ⟨fun h => ⟨h.1, h.2⟩, fun h => ⟨h.1, h.2⟩⟩

theorem lowerPoint_eq_or_le {bound n : Nat} {runs : List CaseRun}
    (h : ∀ run ∈ runs, bound ≤ run.lower) :
    lowerPoint n runs = n ∨ bound ≤ lowerPoint n runs := by
  induction runs with
  | nil => exact .inl rfl
  | cons run runs ih =>
    obtain ⟨hrun, hruns⟩ := List.forall_mem_cons.mp h
    rw [lowerPoint]
    split
    · exact .inl rfl
    · split
      · split
        · exact .inr (Nat.le_add_right_of_le hrun)
        · exact .inl rfl
      · exact ih hruns

theorem ofNat_ne_slash {n : Nat} (h : 0x30 ≤ n) : Char.ofNat n ≠ '/' := by
  intro heq
  have hcode : (Char.ofNat n).toNat = 0x2f := congrArg Char.toNat heq
  by_cases hvalid : n.isValidChar
  · rw [Char.ofNat, dif_pos hvalid] at hcode
    change n = 0x2f at hcode
    omega
  · rw [Char.ofNat, dif_neg hvalid] at hcode
    exact absurd hcode (by decide)

-- Every lower case partner lies above the slash, so that only the slash itself is mapped to it.
theorem eq_slash_of_mem_lowerChar {c : Char} (h : '/' ∈ lowerChar c) : c = '/' := by
  unfold lowerChar at h
  split at h
  · exact absurd h (by decide)
  · have hpoint := List.mem_singleton.mp h
    have hruns : ∀ run ∈ caseRuns, 0x30 ≤ run.lower := by decide +kernel
    rcases @lowerPoint_eq_or_le 0x30 c.toNat _ hruns with heq | hle
    · rw [heq, Char.ofNat_toNat] at hpoint
      exact hpoint.symm
    · exact absurd hpoint.symm (ofNat_ne_slash hle)

theorem slash_mem_of_mem_lowerAfter {before cs : List Char} (h : '/' ∈ lowerAfter before cs) :
    '/' ∈ cs := by
  induction cs generalizing before with
  | nil => cases h
  | cons c cs ih =>
    rw [lowerAfter] at h
    rcases List.mem_append.mp h with h | h
    · split at h
      · rw [List.mem_singleton, sigmaBetween] at h
        split at h
        all_goals exact absurd h (by decide)
      · exact eq_slash_of_mem_lowerChar h ▸ List.mem_cons_self
    · exact List.mem_cons_of_mem c (ih h)

theorem lowerChar_ne_nil (c : Char) : lowerChar c ≠ [] := by
  unfold lowerChar
  split <;> exact List.cons_ne_nil _ _

theorem lowerAfter_ne_nil {before cs : List Char} (h : cs ≠ []) : lowerAfter before cs ≠ [] := by
  cases cs with
  | nil => exact absurd rfl h
  | cons c cs =>
    rw [lowerAfter]
    refine List.append_ne_nil_of_left_ne_nil ?_ _
    split
    · exact List.cons_ne_nil _ _
    · exact lowerChar_ne_nil c

theorem toList_ne_nil_iff {s : String} : s.toList ≠ [] ↔ s ≠ "" :=
  not_congr String.toList_eq_nil_iff

theorem PlainSegment.lowercase {s : String} (h : PlainSegment s) : PlainSegment (lowercase s) where
  ne_empty := by
    rw [← toList_ne_nil_iff, Text.lowercase, String.toList_ofList]
    exact lowerAfter_ne_nil (toList_ne_nil_iff.mpr h.ne_empty)
  slash_not_mem := by
    rw [Text.lowercase, String.toList_ofList]
    exact fun hslash => h.slash_not_mem (slash_mem_of_mem_lowerAfter hslash)

def EndsPlainly (path : String) : Prop :=
  path.toList.getLast? ≠ some '/'

theorem PlainSegment.endsPlainly {s : String} (h : PlainSegment s) : EndsPlainly s :=
  fun hlast => h.slash_not_mem (List.mem_of_getLast? hlast)

theorem endsPlainly_empty : EndsPlainly "" := by
  simp [EndsPlainly]

theorem toList_joinPath {base segment : String} (hbase : base ≠ "") (hends : EndsPlainly base)
    (hsegment : segment ≠ "") :
    (joinPath base segment).toList = base.toList ++ '/' :: segment.toList := by
  have htrim : dropTrailing (· == '/') base.toList = base.toList := by
    refine List.rdropWhile_eq_self_iff.mpr fun hne hlast => hends ?_
    rw [List.getLast?_eq_some_getLast hne, eq_of_beq hlast]
  rw [joinPath, if_neg (by simpa using hbase), if_neg (by simpa using hsegment), htrim]
  simp

variable {base base' segment segment' : String}

theorem toList_joinPath_eq_or (hends : EndsPlainly base) (hsegment : PlainSegment segment) :
    base = "" ∧ joinPath base segment = segment ∨
      (joinPath base segment).toList = base.toList ++ '/' :: segment.toList := by
  by_cases hbase : base = ""
  · exact .inl ⟨hbase, hbase ▸ rfl⟩
  · exact .inr (toList_joinPath hbase hends hsegment.ne_empty)

theorem endsPlainly_joinPath (hends : EndsPlainly base) (hsegment : PlainSegment segment) :
    EndsPlainly (joinPath base segment) := by
  rcases toList_joinPath_eq_or hends hsegment with ⟨-, heq⟩ | heq
  · exact heq.symm ▸ hsegment.endsPlainly
  · have hne := toList_ne_nil_iff.mpr hsegment.ne_empty
    rw [EndsPlainly, heq, List.getLast?_append_of_ne_nil _ (List.cons_ne_nil _ _),
      List.getLast?_cons_of_ne_nil hne]
    exact hsegment.endsPlainly

theorem joinPath_ne_empty (hends : EndsPlainly base) (hsegment : PlainSegment segment) :
    joinPath base segment ≠ "" := by
  rcases toList_joinPath_eq_or hends hsegment with ⟨-, heq⟩ | heq
  · exact heq.symm ▸ hsegment.ne_empty
  · rw [← toList_ne_nil_iff, heq]
    exact List.append_ne_nil_of_right_ne_nil _ (List.cons_ne_nil _ _)

theorem eq_of_joinPath_eq (hbase : EndsPlainly base) (hbase' : EndsPlainly base')
    (hsegment : PlainSegment segment) (hsegment' : PlainSegment segment')
    (h : joinPath base segment = joinPath base' segment') : base = base' ∧ segment = segment' := by
  rcases toList_joinPath_eq_or hbase hsegment with ⟨rfl, heq⟩ | heq
  · rcases toList_joinPath_eq_or hbase' hsegment' with ⟨rfl, heq'⟩ | heq'
    · exact ⟨rfl, heq.symm.trans (h.trans heq')⟩
    · rw [← h, heq] at heq'
      exact absurd (heq' ▸ List.mem_append_right _ List.mem_cons_self) hsegment.slash_not_mem
  · rcases toList_joinPath_eq_or hbase' hsegment' with ⟨rfl, heq'⟩ | heq'
    · rw [h, heq'] at heq
      exact absurd (heq ▸ List.mem_append_right _ List.mem_cons_self) hsegment'.slash_not_mem
    · have hsplit := heq.symm.trans ((congrArg String.toList h).trans heq')
      obtain ⟨hfirst, hlast⟩ := List.eq_of_append_cons_eq hsplit hsegment.slash_not_mem
        hsegment'.slash_not_mem
      exact ⟨String.toList_inj.mp hfirst, String.toList_inj.mp hlast⟩

end InterfaceSchema.Text

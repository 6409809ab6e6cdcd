import InterfaceSchema.Proofs.Text.Path
import InterfaceSchema.Text.Naming

namespace InterfaceSchema.Text

def runs (cs : List Char) : List (List Char) :=
  (cs.splitOnP fun c => !isWordChar c).filter fun run => !run.isEmpty

def words (s : String) : List String :=
  (runs s.toList).map fun run => lowercase (.ofList run)

variable {c : Char} {cs ds run : List Char}

theorem runs_nil : runs [] = [] :=
  rfl

theorem runs_of_word (h : ∀ c ∈ cs, isWordChar c = true) (hne : cs ≠ []) : runs cs = [cs] := by
  rw [runs, List.splitOnP_eq_singleton (by simpa using h)]
  simpa using hne

theorem runs_append_cons (hc : isWordChar c = false) (cs ds : List Char) :
    runs (cs ++ c :: ds) = runs cs ++ runs ds := by
  rw [runs, List.splitOnP_append_cons cs ds (by simpa using hc), List.filter_append, runs, runs]

theorem runs_append_gap (hds : ∀ c ∈ ds, isWordChar c = false) (cs : List Char) :
    runs (cs ++ ds) = runs cs := by
  induction ds generalizing cs with
  | nil => rw [List.append_nil]
  | cons d ds ih =>
    obtain ⟨hd, hds⟩ := List.forall_mem_cons.mp hds
    have hrest : runs ds = [] := by simpa [runs_nil] using ih hds []
    rw [runs_append_cons hd, hrest, List.append_nil]

-- A text is one run, or a run, which may be empty, in front of a character that ends it.
theorem run_induction {motive : List Char → Prop}
    (word : ∀ w, (∀ c ∈ w, isWordChar c = true) → motive w)
    (gap : ∀ w c cs, (∀ c ∈ w, isWordChar c = true) → isWordChar c = false → motive cs →
      motive (w ++ c :: cs)) (cs : List Char) : motive cs := by
  suffices h : ∀ w, (∀ c ∈ w, isWordChar c = true) → motive (w ++ cs) by
    exact h [] (List.forall_mem_nil _)
  induction cs with
  | nil =>
    intro w hw
    rw [List.append_nil]
    exact word w hw
  | cons c cs ih =>
    intro w hw
    cases hc : isWordChar c with
    | true =>
      rw [List.append_cons]
      exact ih _ (List.forall_mem_append.mpr ⟨hw, List.forall_mem_singleton.mpr hc⟩)
    | false => exact gap w c cs hw hc (ih [] (List.forall_mem_nil _))

theorem forall_mem_runs (cs : List Char) :
    ∀ run ∈ runs cs, run ≠ [] ∧ ∀ c ∈ run, isWordChar c = true := by
  have hword : ∀ w : List Char, (∀ c ∈ w, isWordChar c = true) →
      ∀ run ∈ runs w, run ≠ [] ∧ ∀ c ∈ run, isWordChar c = true := by
    intro w hw run hrun
    by_cases hne : w = []
    · rw [hne] at hrun
      cases hrun
    · rw [runs_of_word hw hne] at hrun
      obtain rfl := List.mem_singleton.mp hrun
      exact ⟨hne, hw⟩
  induction cs using run_induction with
  | word w hw => exact hword w hw
  | gap w c cs hw hc ih =>
    rw [runs_append_cons hc]
    exact List.forall_mem_append.mpr ⟨hword w hw, ih⟩

theorem runs_intercalate {rs : List (List Char)}
    (h : ∀ run ∈ rs, run ≠ [] ∧ ∀ c ∈ run, isWordChar c = true) :
    runs (['_'].intercalate rs) = rs := by
  induction rs with
  | nil => rfl
  | cons run rs ih =>
    obtain ⟨⟨hne, hrun⟩, hrs⟩ := List.forall_mem_cons.mp h
    by_cases hnil : rs = []
    · rw [hnil, List.intercalate_singleton, runs_of_word hrun hne]
    · rw [List.intercalate_cons_of_ne_nil hnil, List.append_assoc, List.singleton_append,
        runs_append_cons rfl, runs_of_word hrun hne, ih hrs, List.singleton_append]

theorem dropTrailing_append (p : Char → Bool) (cs ds : List Char) :
    dropTrailing p (cs ++ ds) =
      if dropTrailing p ds = [] then dropTrailing p cs else cs ++ dropTrailing p ds := by
  rw [dropTrailing, List.reverse_append, List.dropWhile_append, dropTrailing, dropTrailing]
  simp only [List.isEmpty_iff, List.reverse_eq_nil_iff]
  split
  · rfl
  · rw [List.reverse_append, List.reverse_reverse]

theorem dropTrailing_of_forall {p : Char → Bool} (h : ∀ c ∈ cs, p c = false) :
    dropTrailing p cs = cs := by
  refine List.rdropWhile_eq_self_iff.mpr fun hne hlast => ?_
  rw [h _ (List.getLast_mem hne)] at hlast
  cases hlast

theorem isWordChar_ne_underscore (h : ∀ c ∈ cs, isWordChar c = true) :
    ∀ c ∈ cs, (c == '_') = false := by
  intro c hc
  refine beq_eq_false_iff_ne.mpr fun heq => ?_
  exact absurd (heq ▸ h c hc) (by decide)

theorem collapseGaps_append (h : ∀ c ∈ cs, isWordChar c = true) (hne : cs ≠ []) (gap : Bool)
    (ds : List Char) : collapseGaps gap (cs ++ ds) = cs ++ collapseGaps false ds := by
  induction cs generalizing gap with
  | nil => exact absurd rfl hne
  | cons c cs ih =>
    obtain ⟨hc, hcs⟩ := List.forall_mem_cons.mp h
    rw [List.cons_append, collapseGaps, if_pos hc, List.cons_append]
    by_cases hnil : cs = []
    · rw [hnil, List.nil_append, List.nil_append]
    · rw [ih hcs hnil]

theorem intercalate_ne_nil {rs : List (List Char)} (h : ∀ run ∈ rs, run ≠ []) (hne : rs ≠ []) :
    ['_'].intercalate rs ≠ [] := by
  obtain ⟨run, rs, rfl⟩ := List.exists_cons_of_ne_nil hne
  have hrun : run ≠ [] := h run List.mem_cons_self
  by_cases hnil : rs = []
  · rwa [hnil, List.intercalate_singleton]
  · rw [List.intercalate_cons_of_ne_nil hnil]
    simp

theorem dropTrailing_collapseGaps (cs : List Char) :
    dropTrailing (· == '_') (collapseGaps true cs) = ['_'].intercalate (runs cs) := by
  induction cs using run_induction with
  | word w hw =>
    by_cases hne : w = []
    · rw [hne]
      rfl
    · have hcollapse : collapseGaps true w = w := by
        simpa [collapseGaps] using collapseGaps_append hw hne true []
      rw [hcollapse, dropTrailing_of_forall (isWordChar_ne_underscore hw), runs_of_word hw hne,
        List.intercalate_singleton]
  | gap w c cs hw hc ih =>
    have hgap : ¬ isWordChar c = true := by simp [hc]
    rw [runs_append_cons hc]
    by_cases hne : w = []
    · rw [hne, List.nil_append, collapseGaps, if_neg hgap, if_pos rfl, ih]
      rfl
    · rw [collapseGaps_append hw hne, collapseGaps, if_neg hgap, if_neg Bool.false_ne_true,
        runs_of_word hw hne, List.singleton_append, List.append_cons, dropTrailing_append, ih]
      by_cases hnil : runs cs = []
      · have hw' : dropTrailing (· == '_') (w ++ ['_']) = w := by
          have hend : dropTrailing (· == '_') ['_'] = [] := rfl
          rw [dropTrailing_append, if_pos hend,
            dropTrailing_of_forall (isWordChar_ne_underscore hw)]
        rw [hnil, List.intercalate_nil, if_pos rfl, hw', List.intercalate_singleton]
      · have hruns := intercalate_ne_nil (fun run hrun => (forall_mem_runs cs run hrun).1) hnil
        rw [if_neg hruns, List.intercalate_cons_of_ne_nil hnil]

-- The underscores in front are those of the gap that the text starts with.
theorem dropWhile_collapseGaps (gap : Bool) (cs : List Char) :
    (collapseGaps gap cs).dropWhile (· == '_') = collapseGaps true cs := by
  induction cs generalizing gap with
  | nil => rfl
  | cons c cs ih =>
    rw [collapseGaps, collapseGaps]
    split
    · next hc =>
      have hne := isWordChar_ne_underscore (List.forall_mem_singleton.mpr hc)
      rw [List.dropWhile_cons, hne c (List.mem_singleton_self c)]
      rfl
    · cases gap with
      | true => exact ih true
      | false => exact ih true

theorem trimUnderscores_collapseGaps (cs : List Char) :
    trimUnderscores (collapseGaps false cs) = ['_'].intercalate (runs cs) := by
  rw [trimUnderscores, dropWhile_collapseGaps, dropTrailing_collapseGaps]

theorem toNat_lt_of_isWordChar (h : isWordChar c = true) : c.toNat < 128 := by
  change (decide ('A'.val ≤ c.val ∧ c.val ≤ 'Z'.val) ||
    (decide ('a'.val ≤ c.val) && decide (c.val ≤ 'z'.val)) ||
    (decide ('0'.val ≤ c.val) && decide (c.val ≤ '9'.val))) = true at h
  simp only [Bool.or_eq_true, Bool.and_eq_true, decide_eq_true_eq, UInt32.le_iff_toNat_le] at h
  change c.val.toNat < 128
  rcases h with (⟨-, h⟩ | ⟨-, h⟩) | ⟨-, h⟩
  all_goals exact Nat.lt_of_le_of_lt h (by decide)

theorem toLower_of_isWordChar (h : isWordChar c = true) :
    (c ≠ 'Σ' ∧ lowerChar c = [c.toLower]) ∧ isWordChar c.toLower = true ∧
      c.toLower.toLower = c.toLower ∧ (c.toLower.isLower || c.toLower.isDigit) = true := by
  have hall : ∀ n < 128, isWordChar (.ofNat n) = true →
      (Char.ofNat n ≠ 'Σ' ∧ lowerChar (.ofNat n) = [(Char.ofNat n).toLower]) ∧
        isWordChar (Char.ofNat n).toLower = true ∧
        (Char.ofNat n).toLower.toLower = (Char.ofNat n).toLower ∧
        ((Char.ofNat n).toLower.isLower || (Char.ofNat n).toLower.isDigit) = true := by
    decide +kernel
  simpa only [Char.ofNat_toNat] using
    hall c.toNat (toNat_lt_of_isWordChar h) (by rwa [Char.ofNat_toNat])

theorem lowerAfter_of_word (h : ∀ c ∈ cs, isWordChar c = true) (before : List Char) :
    lowerAfter before cs = cs.map Char.toLower := by
  induction cs generalizing before with
  | nil => rfl
  | cons c cs ih =>
    obtain ⟨hc, hcs⟩ := List.forall_mem_cons.mp h
    obtain ⟨⟨hsigma, hlower⟩, -⟩ := toLower_of_isWordChar hc
    rw [lowerAfter, if_neg hsigma, hlower, ih hcs, List.map_cons, List.singleton_append]

theorem toList_lowercase_of_word (h : ∀ c ∈ cs, isWordChar c = true) :
    (lowercase (.ofList cs)).toList = cs.map Char.toLower := by
  rw [lowercase, String.toList_ofList, String.toList_ofList, lowerAfter_of_word h]

theorem map_toList_words (s : String) :
    (words s).map String.toList = (runs s.toList).map fun run => run.map Char.toLower := by
  rw [words, List.map_map]
  refine List.map_congr_left fun run hrun => ?_
  exact toList_lowercase_of_word (forall_mem_runs s.toList run hrun).2

theorem toList_snakeCase (s : String) :
    (snakeCase s).toList =
      ['_'].intercalate ((runs s.toList).map fun run => run.map Char.toLower) := by
  rw [snakeCase, String.toList_ofList, trimUnderscores_collapseGaps, List.map_intercalate]
  rfl

theorem snakeCase_eq_intercalate (s : String) : snakeCase s = "_".intercalate (words s) := by
  rw [← String.toList_inj, String.toList_intercalate, map_toList_words, toList_snakeCase]
  rfl

theorem word_of_mem_words {s w : String} (h : w ∈ words s) :
    w ≠ "" ∧ ∀ c ∈ w.toList,
      isWordChar c = true ∧ c.toLower = c ∧ (c.isLower || c.isDigit) = true := by
  obtain ⟨run, hrun, rfl⟩ := List.mem_map.mp h
  obtain ⟨hne, hword⟩ := forall_mem_runs s.toList run hrun
  rw [← toList_ne_nil_iff, toList_lowercase_of_word hword]
  refine ⟨by simpa using hne, List.forall_mem_map.mpr fun c hc => ?_⟩
  exact (toLower_of_isWordChar (hword c hc)).2

theorem words_snakeCase (s : String) : words (snakeCase s) = words s := by
  have hruns : runs (snakeCase s).toList = (words s).map String.toList := by
    rw [toList_snakeCase, ← map_toList_words, runs_intercalate]
    refine List.forall_mem_map.mpr fun w hw => ?_
    obtain ⟨hne, hchars⟩ := word_of_mem_words hw
    exact ⟨toList_ne_nil_iff.mpr hne, fun c hc => (hchars c hc).1⟩
  rw [words, hruns, List.map_map]
  refine (List.map_congr_left fun w hw => ?_).trans (List.map_id _)
  obtain ⟨-, hchars⟩ := word_of_mem_words hw
  have hlower : w.toList.map Char.toLower = w.toList :=
    (List.map_congr_left fun c hc => (hchars c hc).2.1).trans (List.map_id _)
  rw [← String.toList_inj, Function.comp_apply,
    toList_lowercase_of_word fun c hc => (hchars c hc).1, hlower]
  rfl

theorem runs_dropTrailing (hc : isWordChar c = false) (cs : List Char) :
    runs (dropTrailing (· == c) cs) = runs cs := by
  have hsplit : dropTrailing (· == c) cs ++ cs.rtakeWhile (· == c) = cs :=
    List.rdropWhile_append_rtakeWhile
  have hgap : ∀ d ∈ cs.rtakeWhile (· == c), isWordChar d = false := by
    intro d hd
    have heq := List.mem_rtakeWhile_imp hd
    rwa [eq_of_beq heq]
  rw [← runs_append_gap hgap, hsplit]

theorem words_joinPath (base segment : String) :
    words (joinPath base segment) = words base ++ words segment := by
  rw [words, words, words, ← List.map_append]
  congr 1
  unfold joinPath
  split
  · next hbase =>
    rw [String.isEmpty_iff.mp hbase]
    rfl
  · split
    · next hsegment =>
      rw [String.isEmpty_iff.mp hsegment]
      exact (List.append_nil _).symm
    · rw [String.toList_append, String.toList_append, String.toList_ofList, List.append_assoc]
      exact (runs_append_cons rfl _ _).trans (congrArg (· ++ _) (runs_dropTrailing rfl base.toList))

theorem snakeCase_joins_words :
    (∀ s, snakeCase s = "_".intercalate (words s) ∧
      (∀ w ∈ words s, w ≠ "" ∧ ∀ c ∈ w.toList, (c.isLower || c.isDigit) = true) ∧
      snakeCase (snakeCase s) = snakeCase s) ∧
    ∀ a b, words (joinPath a b) = words a ++ words b := by
  refine ⟨fun s => ⟨snakeCase_eq_intercalate s, fun w hw => ?_, ?_⟩, words_joinPath⟩
  · obtain ⟨hne, hchars⟩ := word_of_mem_words hw
    exact ⟨hne, fun c hc => (hchars c hc).2.2⟩
  · rw [snakeCase_eq_intercalate (snakeCase s), words_snakeCase, ← snakeCase_eq_intercalate]

theorem snakeCase_of_joined_path :
    words "Go.Example//" = ["go", "example"] ∧ words "/É9-ItEm_" = ["9", "item"] ∧
      words (joinPath "Go.Example//" "/É9-ItEm_") = ["go", "example", "9", "item"] ∧
      snakeCase (joinPath "Go.Example//" "/É9-ItEm_") = "go_example_9_item" ∧
      ∀ c ∈ "item".toList, (c.isLower || c.isDigit) = true := by
  have hbase : words "Go.Example//" = ["go", "example"] := by decide +kernel
  have hsegment : words "/É9-ItEm_" = ["9", "item"] := by decide +kernel
  obtain ⟨hsnake, hjoin⟩ := snakeCase_joins_words
  have hwords := hjoin "Go.Example//" "/É9-ItEm_"
  rw [hbase, hsegment] at hwords
  obtain ⟨heq, hlower, -⟩ := hsnake (joinPath "Go.Example//" "/É9-ItEm_")
  rw [hwords] at heq hlower
  refine ⟨hbase, hsegment, hwords, heq.trans (by decide +kernel), (hlower "item" ?_).2⟩
  simp

end InterfaceSchema.Text

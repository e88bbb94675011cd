/-
TwinRegion.Proofs.Matching — the library of patterns does what is documented.

Reading undoes writing, kind by kind and part by part (`readRanges_text`,
`readPart_text`), so every proper pattern is read as itself. The search of
a pattern follows the parts, with the rest of the search as an argument
where characters of a kind are skipped: `fits_eq_true_iff` has one case for
each part, and `skips_eq_true_iff` is the one of a run. Both together are
`documented`.
-/
import TwinRegion.Outside.Matcher

namespace TwinRegion.Matcher

open Pattern

/-! ## Reading what was written -/

section Reading

variable {rest : List Char}

theorem isRangeChar_ne {c : Char} (h : isRangeChar c = true) : c ≠ ']' ∧ c ≠ '-' := by
  constructor <;> rintro rfl <;> revert h <;> decide

/-- A character is read as a range if no other range could start with it: a hyphen that follows
is the one at the end. -/
theorem readRanges_single {first : Char} {tail : List Char} (hfirst : isRangeChar first = true)
    (htail : ∀ last rest, tail = '-' :: last :: rest → last = ']') :
    readRanges (first :: tail) =
      (readRanges tail).map fun (ranges, rest) => ((first, first) :: ranges, rest) := by
  obtain ⟨hbracket, hhyphen⟩ := isRangeChar_ne hfirst
  by_cases hlast : ∃ last rest, tail = '-' :: last :: rest
  · obtain ⟨last, rest, rfl⟩ := hlast
    obtain rfl := htail last rest rfl
    rw [readRanges.eq_4 _ _ _ hbracket, if_pos rfl, readRanges]
    rfl
  · exact readRanges.eq_5 _ _ hbracket (fun _ h => absurd h hhyphen)
      fun last rest h => hlast ⟨last, rest, h⟩

theorem readRanges_range {first last : Char} (hfirst : isRangeChar first = true)
    (hlast : isRangeChar last = true) :
    readRanges (first :: '-' :: last :: rest) =
      (readRanges rest).map fun (ranges, rest) => ((first, last) :: ranges, rest) := by
  rw [readRanges.eq_4 _ _ _ (isRangeChar_ne hfirst).1, if_neg (isRangeChar_ne hlast).1]

/-- Where ranges are written, a hyphen that comes first is the one at the end. -/
theorem hyphen_of_ranges {ranges : List (Char × Char)} {hyphen : Bool} {last : Char}
    {tail : List Char}
    (hproper : ranges.all (fun (first, last) =>
      isRangeChar first && isRangeChar last && decide (first ≤ last)) = true)
    (h : ranges.flatMap rangeText ++ (if hyphen then ['-'] else []) ++ ']' :: rest =
      '-' :: last :: tail) : last = ']' := by
  cases ranges with
  | nil =>
    cases hyphen with
    | false => cases h
    | true =>
      cases h
      rfl
  | cons range ranges =>
    obtain ⟨first, final⟩ := range
    simp only [List.all_cons, Bool.and_eq_true] at hproper
    have hhead : first = '-' := by
      rw [List.flatMap_cons, rangeText] at h
      split at h <;> exact (List.cons.inj h).1
    exact absurd hhead (isRangeChar_ne hproper.1.1.1).2

theorem readRanges_text {ranges : List (Char × Char)} (hyphen : Bool)
    (hproper : ranges.all (fun (first, last) =>
      isRangeChar first && isRangeChar last && decide (first ≤ last)) = true) :
    readRanges (ranges.flatMap rangeText ++ (if hyphen then ['-'] else []) ++ ']' :: rest) =
      some (ranges, hyphen, rest) := by
  induction ranges with
  | nil => cases hyphen <;> simp [readRanges]
  | cons range ranges ih =>
    obtain ⟨first, last⟩ := range
    simp only [List.all_cons, Bool.and_eq_true] at hproper
    obtain ⟨⟨⟨hfirst, hlast⟩, -⟩, hproper⟩ := hproper
    rw [List.flatMap_cons, rangeText, List.append_assoc, List.append_assoc]
    split
    · subst last
      rw [List.singleton_append, readRanges_single hfirst, ← List.append_assoc, ih hproper]
      · rfl
      · intro last tail h
        rw [← List.append_assoc] at h
        exact hyphen_of_ranges hproper h
    · rw [List.cons_append, List.cons_append, List.singleton_append,
        readRanges_range hfirst hlast, ← List.append_assoc, ih hproper]
      rfl

theorem isMeta_bracket : isMeta '[' = true := by decide

theorem isMeta_backslash : isMeta '\\' = true := by decide

theorem readKind_text {kind : Kind} (hproper : kind.isProper = true) :
    readKind (kind.text ++ rest) = some (kind, rest) := by
  cases kind with
  | only c =>
    rw [Kind.text]
    by_cases hmeta : isMeta c = true
    · rw [if_pos hmeta]
      show readKind ('\\' :: c :: rest) = _
      rw [readKind, if_pos hmeta]
    · have hbracket : c ≠ '[' := fun h => hmeta (h ▸ isMeta_bracket)
      have hbackslash : c ≠ '\\' := fun h => hmeta (h ▸ isMeta_backslash)
      rw [if_neg hmeta, List.singleton_append, readKind.eq_4 _ _ hbracket, if_neg hmeta]
      exact fun _ _ h => absurd h hbackslash
  | among ranges hyphen =>
    simp only [Kind.isProper, Bool.and_eq_true] at hproper
    have hranges := @readRanges_text rest ranges hyphen hproper.2
    rw [Kind.text, List.append_assoc, List.singleton_append, List.cons_append, List.cons_append,
      readKind, hranges]
    rfl

/-- A kind does not start like the other parts, and a star is not part of it. -/
theorem readPart_kind {kind : Kind} (hproper : kind.isProper = true) :
    readPart (kind.text ++ rest) =
      match rest with
      | '*' :: rest => some (.many kind, rest)
      | rest => some (.one kind, rest) := by
  have hread := @readKind_text rest kind hproper
  have hhead : ∀ c tail, kind.text ++ rest = c :: tail → c ≠ '^' ∧ c ≠ '$' := by
    intro c tail h
    cases kind with
    | only d =>
      rw [Kind.text] at h
      split at h
      · obtain rfl := (List.cons.inj h).1
        decide
      · rename_i hmeta
        obtain rfl := (List.cons.inj h).1
        constructor <;> rintro rfl <;> exact hmeta (by decide)
    | among ranges hyphen =>
      obtain rfl := (List.cons.inj h).1
      decide
  unfold readPart
  split
  · exact absurd rfl (hhead _ _ ‹_›).1
  · exact absurd rfl (hhead _ _ ‹_›).2
  · rw [hread]
    split <;> simp_all

/-- What comes behind a part is not a star. -/
def Unstarred (rest : List Char) : Prop := ∀ tail, rest ≠ '*' :: tail

theorem readPart_text {part : Part} (hproper : part.isProper = true) (hrest : Unstarred rest) :
    readPart (part.text ++ rest) = some (part, rest) := by
  cases part with
  | start => rfl
  | stop => rfl
  | one kind =>
    rw [Part.text, readPart_kind hproper]
    split
    · exact absurd rfl (hrest _)
    · rfl
  | many kind =>
    rw [Part.text, List.append_assoc, readPart_kind hproper]
    rfl

theorem exists_text_cons (part : Part) : ∃ c tail, part.text = c :: tail ∧ c ≠ '*' := by
  have hkind : ∀ kind : Kind, ∃ c tail, kind.text = c :: tail ∧ c ≠ '*' := by
    intro kind
    cases kind with
    | only c =>
      rw [Kind.text]
      split
      · exact ⟨_, _, rfl, by decide⟩
      · refine ⟨_, _, rfl, ?_⟩
        rintro rfl
        exact ‹¬ _› (by decide)
    | among ranges hyphen => exact ⟨_, _, rfl, by decide⟩
  cases part with
  | start => exact ⟨_, _, rfl, by decide⟩
  | stop => exact ⟨_, _, rfl, by decide⟩
  | one kind => exact hkind kind
  | many kind =>
    obtain ⟨c, tail, htext, hc⟩ := hkind kind
    exact ⟨c, tail ++ ['*'], by rw [Part.text, htext, List.cons_append], hc⟩

theorem unstarred_text (parts : List Part) : Unstarred (parts.flatMap Part.text) := by
  intro tail h
  cases parts with
  | nil => cases h
  | cons part parts =>
    obtain ⟨c, text, htext, hc⟩ := exists_text_cons part
    rw [List.flatMap_cons, htext, List.cons_append] at h
    exact hc (List.cons.inj h).1

theorem readParts_text {parts : List Part} {bound : Nat}
    (hproper : parts.all Part.isProper = true)
    (hbound : (parts.flatMap Part.text).length ≤ bound) :
    readParts bound (parts.flatMap Part.text) = some parts := by
  induction parts generalizing bound with
  | nil => rw [List.flatMap_nil, readParts]
  | cons part parts ih =>
    rw [List.all_cons, Bool.and_eq_true] at hproper
    obtain ⟨c, tail, htext, -⟩ := exists_text_cons part
    have hread := readPart_text hproper.1 (unstarred_text parts)
    rw [List.flatMap_cons, htext, List.cons_append] at hbound ⊢
    rw [htext, List.cons_append] at hread
    obtain _ | bound := bound
    · cases hbound
    · rw [readParts, hread]
      have hrest : (parts.flatMap Part.text).length ≤ bound := by
        rw [List.length_cons, List.length_append] at hbound
        omega
      show (readParts bound _).map _ = _
      rw [ih hproper.2 hrest]
      rfl

end Reading

/-! ## Finding what is there -/

theorem has_eq_true_iff {kind : Kind} {c : Char} : has kind c = true ↔ kind.Has c := by
  cases kind with
  | only d => simp [has, Kind.Has]
  | among ranges hyphen => simp [has, Kind.Has, List.any_eq_true]

/-- Skipping goes on as long as characters are of the kind, and may stop before each of them. -/
theorem skips_eq_true_iff {kind : Char → Bool} {next : Bool → List Char → Bool}
    {before rest : List Char} :
    skips kind next before.isEmpty rest = true ↔
      ∃ run tail, rest = run ++ tail ∧ (∀ c ∈ run, kind c = true) ∧
        next (before ++ run).isEmpty tail = true := by
  induction rest generalizing before with
  | nil =>
    rw [skips]
    constructor
    · intro h
      exact ⟨[], [], rfl, by simp, by rwa [List.append_nil]⟩
    · rintro ⟨run, tail, h, -, hnext⟩
      obtain ⟨rfl, rfl⟩ := List.append_eq_nil_iff.mp h.symm
      rwa [List.append_nil] at hnext
  | cons c rest ih =>
    have hbehind : (before ++ [c]).isEmpty = false := by simp
    rw [skips, Bool.or_eq_true, Bool.and_eq_true, ← hbehind, ih]
    constructor
    · rintro (hnext | ⟨hkind, run, tail, rfl, hrun, hnext⟩)
      · exact ⟨[], c :: rest, rfl, by simp, by rwa [List.append_nil]⟩
      · refine ⟨c :: run, tail, rfl, List.forall_mem_cons.mpr ⟨hkind, hrun⟩, ?_⟩
        rwa [List.append_assoc, List.singleton_append] at hnext
    · rintro ⟨run, tail, h, hrun, hnext⟩
      cases run with
      | nil =>
        obtain rfl : c :: rest = tail := h
        rw [List.append_nil] at hnext
        exact .inl hnext
      | cons d run =>
        obtain ⟨rfl, rfl⟩ := List.cons.inj h
        obtain ⟨hkind, hrun⟩ := List.forall_mem_cons.mp hrun
        refine .inr ⟨hkind, run, tail, rfl, hrun, ?_⟩
        rwa [List.append_assoc, List.singleton_append]

theorem fits_eq_true_iff {parts : List Part} {before rest : List Char} :
    fits parts before.isEmpty rest = true ↔ Fits before parts rest := by
  induction parts generalizing before rest with
  | nil => simp [fits, Fits]
  | cons part parts ih =>
    cases part with
    | start => rw [fits, Fits, Bool.and_eq_true, List.isEmpty_iff, ih]
    | stop => rw [fits, Fits, Bool.and_eq_true, List.isEmpty_iff, ih]
    | one kind =>
      cases rest with
      | nil => simp [fits, Fits]
      | cons c rest =>
        have hbehind : (before ++ [c]).isEmpty = false := by simp
        rw [fits, Fits, Bool.and_eq_true, has_eq_true_iff, ← hbehind, ih]
        constructor
        · rintro ⟨hkind, hfits⟩
          exact ⟨c, rest, rfl, hkind, hfits⟩
        · rintro ⟨_, _, h, hkind, hfits⟩
          cases h
          exact ⟨hkind, hfits⟩
    | many kind => simp only [fits, Fits, skips_eq_true_iff, has_eq_true_iff, ih]

/-- The library reads proper patterns of any length, and finds them where their parts occur. -/
theorem documented : @PatternLibrary.Documented library := by
  have hread : ∀ parts, parts.all Part.isProper = true →
      library.compile? (text parts) = some parts := by
    intro parts hproper
    have htext : (text parts).toList = parts.flatMap Part.text := String.toList_ofList
    show (readParts (text parts).length (text parts).toList).filter _ = _
    have hlength : (parts.flatMap Part.text).length ≤ (text parts).length := by
      rw [← htext]
      exact Nat.le_of_eq String.length_toList
    rw [htext, readParts_text hproper hlength, Option.filter_some, if_pos hproper]
  refine @PatternLibrary.Documented.mk library (fun parts hproper _ => ⟨parts, hread parts hproper⟩)
    fun parts compiled hproper hcompiled s => ?_
  obtain rfl := Option.some.inj ((hread parts hproper).symm.trans hcompiled)
  show skips (fun _ => true) (fits parts) ([] : List Char).isEmpty s.toList = true ↔ _
  simp only [skips_eq_true_iff, fits_eq_true_iff, List.nil_append, Occurs, implies_true, true_and]

end TwinRegion.Matcher

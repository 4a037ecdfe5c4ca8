import InertialOdometry.Proofs.Decimal.Digits
import InertialOdometry.Decimal.Fixed
import InertialOdometry.Decimal.Shortest
import InertialOdometry.Proofs.Reading

/-!
Reading numbers back from their texts. Whatever form a number is written in, with a point or with an
exponent, its text is made of digits and of few other characters, and the reader finds the
digits and the place of the point that were written.
-/

namespace InertialOdometry.Decimal

/-! ### Plain texts -/

/-- The characters that numbers are written with. -/
def IsNumeral (c : Char) : Prop := c.isDigit ∨ c ∈ ['.', 'e', '+', '-', 'i', 'n', 'f', 'a']

instance : DecidablePred IsNumeral := fun _ => inferInstanceAs (Decidable (_ ∨ _))

/-- A text that has only such characters, and is read as `l`. -/
structure ReadsAs (s : String) (l : Literal) : Prop where
  numeral : ∀ c ∈ s.toList, IsNumeral c
  read : readNumber? s = some l

theorem ReadsAs.ne_empty {s : String} {l : Literal} (h : ReadsAs s l) : s ≠ "" := by
  rintro rfl
  have hread := h.read
  rw [show readNumber? "" = none by decide +kernel] at hread
  cases hread

/-- The text of a magnitude, with a sign or without one, is read as `n · 10 ^ scale`. -/
def Reads (cs : List Char) (n : ℕ) (scale : ℤ) : Prop :=
  ∀ negative, ReadsAs (.ofList (signed negative cs)) (.finite negative n scale)

variable {cs : List Char} {c : Char} {negative : Bool}

theorem toNat_of_isDigit (h : c.isDigit) : 48 ≤ c.toNat ∧ c.toNat ≤ 57 := by
  simpa [Char.isDigit, UInt32.le_iff_toNat_le] using h

/-- What numbers are written with is read as it stands. -/
private theorem IsNumeral.plain (h : IsNumeral c) :
    plainForm c = some c ∧ Text.isPlainBlank c = false ∧ c ≠ '_' := by
  rcases h with h | h
  · have hrange := toNat_of_isDigit h
    refine ⟨if_pos (by omega), ?_, ?_⟩
    · have hspace : c ≠ ' ' := by rintro rfl; exact absurd h (by decide)
      simp [Text.isPlainBlank, hspace]
      omega
    · rintro rfl
      exact absurd h (by decide)
  · -- A search through all characters would not come to an end, one through the list does.
    have hall : ['.', 'e', '+', '-', 'i', 'n', 'f', 'a'].all fun c =>
        decide (plainForm c = some c ∧ Text.isPlainBlank c = false ∧ c ≠ '_') := by
      decide
    exact of_decide_eq_true (List.all_eq_true.mp hall c h)

private theorem forall_isNumeral (h : cs.all fun c => decide (IsNumeral c)) :
    ∀ c ∈ cs, IsNumeral c := fun c hc => of_decide_eq_true (List.all_eq_true.mp h c hc)

private theorem dropUnderscores_eq (h : ∀ c ∈ cs, IsNumeral c) (afterDigit : Bool) :
    dropUnderscores afterDigit cs = some cs := by
  induction cs generalizing afterDigit with
  | nil => rfl
  | cons c cs ih =>
    obtain ⟨hc, hcs⟩ := List.forall_mem_cons.mp h
    have hne := hc.plain.2.2
    rw [dropUnderscores, ih hcs]
    · rfl
    · rintro rfl
      exact fun _ => hne rfl
    · rintro _ _ rfl
      exact fun _ => hne rfl

private theorem dropWhile_isPlainBlank_eq (h : ∀ c ∈ cs, IsNumeral c) :
    cs.dropWhile Text.isPlainBlank = cs :=
  List.dropWhile_eq_self_iff.mpr fun hl => by
    simpa using (h _ (List.getElem_mem hl)).plain.2.1

private theorem plainText_eq (h : ∀ c ∈ cs, IsNumeral c) : plainText (.ofList cs) = some cs := by
  have hplain : cs.mapM plainForm = some cs := by
    rw [mapM_eq_some_iff, List.forall₂_same]
    exact fun c hc => (h c hc).plain.1
  have htrim : Text.trimBoth Text.isPlainBlank cs = cs := by
    rw [Text.trimBoth, dropWhile_isPlainBlank_eq h, dropWhile_isPlainBlank_eq, List.reverse_reverse]
    exact fun c hc => h c (List.mem_reverse.mp hc)
  simp [plainText, hplain, htrim, dropUnderscores_eq h]

/-! ### Signs -/

private theorem forall_mem_signed (h : ∀ c ∈ cs, IsNumeral c) :
    ∀ c ∈ signed negative cs, IsNumeral c := by
  unfold signed
  split_ifs
  · exact List.forall_mem_cons.mpr ⟨Or.inr (by decide), h⟩
  · exact h

/-- What begins with a digit has no sign of its own. -/
private theorem splitSign_signed (hc : c.isDigit) :
    splitSign (signed negative (c :: cs)) = (negative, c :: cs) := by
  cases negative
  · rw [signed, if_neg (by decide), splitSign]
    · rintro _ ⟨⟩
      exact absurd hc (by decide)
    · rintro _ ⟨⟩
      exact absurd hc (by decide)
  · rfl

private theorem toLower_eq_of_isDigit (hc : c.isDigit) : c.toLower = c := by
  have hrange := toNat_of_isDigit hc
  refine dif_neg fun h => ?_
  have hupper : 65 ≤ c.toNat := UInt32.le_iff_toNat_le.mp h.1
  omega

/-- What begins with a digit is none of the words that are read. -/
private theorem ofList_ne {w : String} (hc : c.isDigit)
    (hw : w.toList.head?.any Char.isDigit = false) :
    String.ofList ((c :: cs).map Char.toLower) ≠ w := by
  rintro rfl
  rw [String.toList_ofList, List.map_cons, toLower_eq_of_isDigit hc, List.head?_cons,
    Option.any_some, hc] at hw
  cases hw

/-- What begins with digits is read as its magnitude, once the sign is split off. -/
private theorem readsAs_signed {ds rest : List Char} {l : Literal} (hne : ds ≠ [])
    (hds : ∀ c ∈ ds, c.isDigit) (hrest : ∀ c ∈ rest, IsNumeral c)
    (hread : magnitude? negative (ds ++ rest) = some l) :
    ReadsAs (.ofList (signed negative (ds ++ rest))) l := by
  have hcs : ∀ c ∈ ds ++ rest, IsNumeral c := fun c hc =>
    (List.mem_append.mp hc).elim (fun h => Or.inl (hds c h)) (hrest c)
  refine ⟨by rw [String.toList_ofList]; exact forall_mem_signed hcs, ?_⟩
  obtain ⟨c, cs, rfl⟩ := List.exists_cons_of_ne_nil hne
  have hc := hds c List.mem_cons_self
  rw [readNumber?, plainText_eq (forall_mem_signed hcs), ← hread, List.cons_append]
  simp only [Option.bind_eq_bind, Option.bind_some, splitSign_signed hc]
  split
  · exact absurd ‹_› (ofList_ne hc (by decide))
  · exact absurd ‹_› (ofList_ne hc (by decide))
  · exact absurd ‹_› (ofList_ne hc (by decide))
  · rfl

/-! ### Points and exponents -/

private theorem exponent?_exponentText (e : ℤ) : exponent? (exponentText e) = some e := by
  have hdigits : ∀ c ∈ padZeros 2 (digits e.natAbs), c.isDigit := fun c hc =>
    isDigit_of_mem_padZeros (fun c hc => isDigit_of_mem_digits hc) hc
  have hlength := le_length_padZeros 2 (digits e.natAbs)
  have hfull : (padZeros 2 (digits e.natAbs)).isEmpty = false := by
    rw [List.isEmpty_eq_false_iff]
    rintro hnil
    rw [hnil] at hlength
    simp at hlength
  have hall : (padZeros 2 (digits e.natAbs)).all Char.isDigit = true := List.all_eq_true.mpr hdigits
  have hvalue : ofDigits (padZeros 2 (digits e.natAbs)) = e.natAbs := by
    rw [ofDigits_padZeros, ofDigits_digits]
  unfold exponentText
  generalize padZeros 2 (digits e.natAbs) = ds at hfull hall hvalue
  split_ifs with h <;> simp [exponent?, splitSign, hfull, hall] <;> omega

private theorem isNumeral_of_mem_exponentText {e : ℤ} (h : c ∈ exponentText e) : IsNumeral c := by
  rcases List.mem_cons.mp h with rfl | h
  · exact Or.inr (by decide)
  rcases List.mem_cons.mp h with rfl | h
  · exact Or.inr (by split_ifs <;> decide)
  · exact Or.inl (isDigit_of_mem_padZeros (fun c hc => isDigit_of_mem_digits hc) h)

variable {whole behind tail : List Char} {e : ℤ}

/-- A row of digits ends where something else begins. -/
private theorem takeWhile_digits (hwhole : ∀ c ∈ whole, c.isDigit)
    (htail : ∀ c ∈ tail.head?, ¬c.isDigit) :
    (whole ++ tail).takeWhile Char.isDigit = whole ∧
      (whole ++ tail).dropWhile Char.isDigit = tail := by
  rw [List.takeWhile_append_of_pos hwhole, List.dropWhile_append_of_pos hwhole]
  cases tail with
  | nil => simp
  | cons c tail =>
    have hc := htail c rfl
    simp [hc]

/-- What may stand behind the digits of a number: nothing, or an exponent. -/
structure Ends (tail : List Char) (e : ℤ) : Prop where
  reads : exponent? tail = some e
  numeral : ∀ c ∈ tail, IsNumeral c
  head : ∀ c ∈ tail.head?, ¬c.isDigit ∧ c ≠ '.'

private theorem ends_nil : Ends [] 0 := ⟨rfl, by simp, by simp⟩

private theorem ends_exponentText (e : ℤ) : Ends (exponentText e) e :=
  ⟨exponent?_exponentText e, fun _ hc => isNumeral_of_mem_exponentText hc, by
    rintro _ ⟨⟩
    decide⟩

private theorem reads_of_point (whole behind : List Char) (hne : whole ≠ [])
    (hwhole : ∀ c ∈ whole, c.isDigit) (hbehind : ∀ c ∈ behind, c.isDigit)
    (htail : Ends tail e) :
    Reads (whole ++ '.' :: (behind ++ tail)) (ofDigits (whole ++ behind)) (e - behind.length) := by
  intro negative
  have hpoint : ∀ c ∈ ('.' :: (behind ++ tail)).head?, ¬c.isDigit := by
    rintro _ ⟨⟩
    decide
  obtain ⟨htake, hdrop⟩ := takeWhile_digits hwhole hpoint
  obtain ⟨htake', hdrop'⟩ := takeWhile_digits hbehind fun c hc => (htail.head c hc).1
  refine readsAs_signed hne hwhole ?_ ?_
  · refine List.forall_mem_cons.mpr ⟨Or.inr (by decide), fun c hc => ?_⟩
    exact (List.mem_append.mp hc).elim (fun h => Or.inl (hbehind c h)) (htail.numeral c)
  · simp [magnitude?, htake, hdrop, htake', hdrop', htail.reads, hne]

private theorem reads_of_no_point (whole : List Char) (hne : whole ≠ [])
    (hwhole : ∀ c ∈ whole, c.isDigit) (htail : Ends tail e) :
    Reads (whole ++ tail) (ofDigits whole) e := by
  intro negative
  obtain ⟨htake, hdrop⟩ := takeWhile_digits hwhole fun c hc => (htail.head c hc).1
  have hpoint : ∀ rest, tail ≠ '.' :: rest := by
    rintro rest rfl
    exact (htail.head '.' rfl).2 rfl
  refine readsAs_signed hne hwhole htail.numeral ?_
  simp [magnitude?, htake, hdrop, htail.reads, hne]

/-! ### The forms of numbers -/

theorem readsAs_notANumber : ReadsAs (.ofList ['n', 'a', 'n']) .notANumber :=
  ⟨forall_isNumeral (by decide), by decide +kernel⟩

theorem readsAs_infinite (negative : Bool) :
    ReadsAs (.ofList (signed negative ['i', 'n', 'f'])) (.infinite negative) := by
  constructor
  · rw [String.toList_ofList]
    exact forall_mem_signed (forall_isNumeral (by decide))
  · revert negative
    decide +kernel

theorem reads_zero : Reads ['0', '.', '0'] 0 (-1) :=
  reads_of_point ['0'] ['0'] (by simp) (by simp) (by simp) ends_nil

/-- A number that is written with a point is read as it was meant. -/
theorem reads_pointed (places n : ℕ) : Reads (pointed places n) n (-places) := by
  have hdigits : ∀ c ∈ padZeros (places + 1) (digits n), c.isDigit := fun c hc =>
    isDigit_of_mem_padZeros (fun c hc => isDigit_of_mem_digits hc) hc
  have hvalue : ofDigits (padZeros (places + 1) (digits n)) = n := by
    rw [ofDigits_padZeros, ofDigits_digits]
  have hlength := le_length_padZeros (places + 1) (digits n)
  unfold pointed
  generalize padZeros (places + 1) (digits n) = ds at hdigits hvalue hlength
  dsimp only
  split_ifs with hplaces
  · subst hplaces
    have hread := reads_of_no_point ds (List.ne_nil_of_length_pos hlength) hdigits ends_nil
    rwa [List.append_nil, hvalue] at hread
  · have hread := reads_of_point (ds.take (ds.length - places))
      (ds.drop (ds.length - places)) (List.ne_nil_of_length_pos (by simp; omega))
      (fun c hc => hdigits c (List.mem_of_mem_take hc))
      (fun c hc => hdigits c (List.mem_of_mem_drop hc)) ends_nil
    rw [List.append_nil, List.take_append_drop, hvalue, List.length_drop, zero_sub] at hread
    rwa [show ds.length - (ds.length - places) = places by omega] at hread

variable {ds : List Char}

private theorem reads_scientific (hne : ds ≠ []) (hds : ∀ c ∈ ds, c.isDigit) {top : ℤ}
    (hfar : top < -4 ∨ 16 ≤ top) :
    Reads (layOut ds top) (ofDigits ds) (top + 1 - ds.length) := by
  unfold layOut
  rw [if_pos (by simpa using hfar)]
  obtain ⟨d, rest, rfl⟩ := List.exists_cons_of_ne_nil hne
  cases rest with
  | nil =>
    have hread := reads_of_no_point _ hne hds (ends_exponentText top)
    simpa using hread
  | cons b rest =>
    have hd : ∀ c ∈ [d], c.isDigit := fun c hc => hds c (by simp_all)
    have hread := reads_of_point _ _ (by simp) hd (fun c hc => hds c (List.mem_cons_of_mem _ hc))
      (ends_exponentText top)
    have hscale : top + 1 - (d :: b :: rest).length = top - (b :: rest).length := by
      simp only [List.length_cons]
      omega
    rw [hscale]
    exact hread

private theorem reads_fraction (hds : ∀ c ∈ ds, c.isDigit) {top : ℤ} (hlow : -4 ≤ top)
    (hhigh : top < 0) : Reads (layOut ds top) (ofDigits ds) (top + 1 - ds.length) := by
  have hbehind : ∀ c ∈ List.replicate (-top - 1).toNat '0' ++ ds, c.isDigit :=
    List.forall_mem_append.mpr ⟨fun _ => isDigit_of_mem_zeros, hds⟩
  have hread := reads_of_point ['0'] _ (by simp) (by simp) hbehind ends_nil
  have hvalue : ofDigits (['0'] ++ (List.replicate (-top - 1).toNat '0' ++ ds)) = ofDigits ds := by
    rw [ofDigits_append, ofDigits_append, ofDigits_replicate_zero]
    simp [ofDigits]
  have hscale : (0 : ℤ) - (List.replicate (-top - 1).toNat '0' ++ ds).length =
      top + 1 - ds.length := by
    simp only [List.length_append, List.length_replicate]
    omega
  rw [List.append_nil, hvalue, hscale] at hread
  unfold layOut
  rw [if_neg (by simp; omega), if_pos hhigh]
  exact hread

private theorem reads_mixed (hds : ∀ c ∈ ds, c.isDigit) {whole : ℕ} (hfar : whole < 16)
    (hlength : whole + 1 < ds.length) :
    Reads (layOut ds whole) (ofDigits ds) (whole + 1 - ds.length) := by
  have hbehind : (ds.drop (whole + 1)).isEmpty = false := by simpa using hlength
  have hread := reads_of_point (ds.take (whole + 1)) (ds.drop (whole + 1))
    (List.ne_nil_of_length_pos (by simp; omega)) (fun c hc => hds c (List.mem_of_mem_take hc))
    (fun c hc => hds c (List.mem_of_mem_drop hc)) ends_nil
  have hscale : (0 : ℤ) - (ds.drop (whole + 1)).length = whole + 1 - ds.length := by
    rw [List.length_drop]
    omega
  rw [List.append_nil, List.take_append_drop, hscale] at hread
  unfold layOut
  rw [if_neg (by simp; omega), if_neg (by omega)]
  simpa [hbehind, Nat.sub_eq_zero_of_le hlength.le] using hread

private theorem reads_whole (hne : ds ≠ []) (hds : ∀ c ∈ ds, c.isDigit) {whole : ℕ}
    (hfar : whole < 16) (hlength : ds.length ≤ whole + 1) :
    Reads (layOut ds whole) (ofDigits ds * 10 ^ (whole + 2 - ds.length)) (-1) := by
  have hbehind : (ds.drop (whole + 1)).isEmpty = true := by simpa using hlength
  have hwhole : ∀ c ∈ ds ++ List.replicate (whole + 1 - ds.length) '0', c.isDigit :=
    List.forall_mem_append.mpr ⟨hds, fun _ => isDigit_of_mem_zeros⟩
  have hread := reads_of_point _ ['0'] (by simp [hne]) hwhole (by simp) ends_nil
  have hvalue : ofDigits (ds ++ List.replicate (whole + 1 - ds.length) '0' ++ ['0']) =
      ofDigits ds * 10 ^ (whole + 2 - ds.length) := by
    rw [List.append_assoc, ← List.replicate_succ', ofDigits_append, ofDigits_replicate_zero,
      List.length_replicate, add_zero]
    congr 2
    omega
  rw [hvalue] at hread
  unfold layOut
  rw [if_neg (by simp; omega), if_neg (by omega)]
  simpa [hbehind, List.take_of_length_le hlength] using hread

/-- Digits that are laid out are read as the number with the leading digit at the place that was
asked for. -/
theorem exists_reads_layOut (hne : ds ≠ []) (hds : ∀ c ∈ ds, c.isDigit) (top : ℤ) :
    ∃ n k : ℕ, ∃ scale : ℤ, Reads (layOut ds top) n scale ∧ n = ofDigits ds * 10 ^ k ∧
      scale + k = top + 1 - ds.length := by
  by_cases hfar : top < -4 ∨ 16 ≤ top
  · exact ⟨_, 0, _, reads_scientific hne hds hfar, by simp, by simp⟩
  by_cases hhigh : top < 0
  · exact ⟨_, 0, _, reads_fraction hds (by omega) hhigh, by simp, by simp⟩
  obtain ⟨whole, rfl⟩ := Int.eq_ofNat_of_zero_le (not_lt.mp hhigh)
  by_cases hlength : whole + 1 < ds.length
  · exact ⟨_, 0, _, reads_mixed hds (by omega) hlength, by simp, by simp⟩
  · exact ⟨_, _, _, reads_whole hne hds (by omega) (not_lt.mp hlength), rfl, by omega⟩

end InertialOdometry.Decimal

import Mathlib.Data.List.Basic
import ThreadSoup.Toml.Document

namespace ThreadSoup.Toml

/-- Where the rest of a text may start after a value: at its end or at the end of a line. -/
inductive LineEnd : List Char → Prop
  | nil : LineEnd []
  | newline (s : List Char) : LineEnd ('\n' :: s)

theorem isDecimalDigit_eq (c : Char) : isDecimalDigit c = c.isDigit := rfl

theorem readDigits_cons {isDigit : Char → Bool} {c : Char} {s : List Char} (hc : c ≠ '_') :
    readDigits isDigit (c :: s) =
      if isDigit c then (c :: (readDigits isDigit s).1, (readDigits isDigit s).2)
      else ([], c :: s) := by
  rw [readDigits.eq_def]
  split
  next heq =>
    cases heq
    exact absurd rfl hc
  next heq =>
    cases heq
    rfl
  next heq => cases heq

theorem readDigits_append {digits rest : List Char} (hdigits : ∀ c ∈ digits, c.isDigit)
    (h : LineEnd rest) : readDigits isDecimalDigit (digits ++ rest) = (digits, rest) := by
  induction digits with
  | nil =>
    cases h with
    | nil => rfl
    | newline s => rfl
  | cons c digits ih =>
    have hc : c.isDigit := hdigits c (by simp)
    have hne : c ≠ '_' := by
      rintro rfl
      exact absurd hc (by decide)
    have htail := ih fun d hd => hdigits d (List.mem_cons_of_mem c hd)
    rw [List.cons_append, readDigits_cons hne, isDecimalDigit_eq, if_pos hc, htail]

/-- A field of a date that stands in a plain number leaves the rest of its digits. -/
theorem readField_digits {width low high n : Nat} {digits rest after : List Char}
    (h : LineEnd rest)
    (hread : readField width low high (digits ++ rest) = some (n, after)) :
    after = digits.drop width ++ rest := by
  simp only [readField] at hread
  split at hread
  next hfield =>
    cases hread
    obtain ⟨hlength, hall, _⟩ := hfield
    by_cases hle : width ≤ digits.length
    · rw [List.drop_append_of_le_length hle]
    · -- the field would reach over the end of the line
      rw [List.take_append, List.take_of_length_le (by omega)] at hlength hall
      obtain ⟨extra, hextra⟩ := Nat.exists_eq_add_one_of_ne_zero
        (by omega : width - digits.length ≠ 0)
      cases h with
      | nil =>
        rw [List.take_nil, List.append_nil] at hlength
        omega
      | newline s =>
        rw [hextra, List.take_succ_cons, List.all_append, List.all_cons] at hall
        simp [isDecimalDigit] at hall
  next => cases hread

theorem skipChar_digits {c : Char} {digits rest : List Char} (hdigits : ∀ d ∈ digits, d.isDigit)
    (h : LineEnd rest) (hc : c.isDigit = false) (hnewline : c ≠ '\n') :
    skipChar c (digits ++ rest) = none := by
  cases digits with
  | nil =>
    cases h with
    | nil => rfl
    | newline s => exact if_neg hnewline.symm
  | cons d digits =>
    have hd : d.isDigit := hdigits d (by simp)
    refine if_neg ?_
    rintro rfl
    rw [hc] at hd
    cases hd

theorem skipChar_after_field {width low high n : Nat} {c : Char} {digits rest after : List Char}
    (hdigits : ∀ d ∈ digits, d.isDigit) (h : LineEnd rest) (hc : c.isDigit = false)
    (hnewline : c ≠ '\n') (hread : readField width low high (digits ++ rest) = some (n, after)) :
    skipChar c after = none := by
  rw [readField_digits h hread]
  exact skipChar_digits (fun d hd => hdigits d (List.mem_of_mem_drop hd)) h hc hnewline

/-- A plain number is neither a date nor a time: no mark follows its digits. -/
theorem skipDate_digits {digits rest : List Char} (hdigits : ∀ c ∈ digits, c.isDigit)
    (h : LineEnd rest) : skipDate (digits ++ rest) = none := by
  have hday : skipDay (digits ++ rest) = none := by
    unfold skipDay
    cases hread : readField 4 0 9999 (digits ++ rest) with
    | none => rfl
    | some field =>
      simp only [Option.bind_eq_bind, Option.bind_some]
      rw [skipChar_after_field hdigits h (by decide) (by decide) hread]
      rfl
  have hclock : skipClock (digits ++ rest) = none := by
    unfold skipClock
    cases hread : readField 2 0 23 (digits ++ rest) with
    | none => rfl
    | some field =>
      simp only [Option.bind_eq_bind, Option.bind_some]
      rw [skipChar_after_field hdigits h (by decide) (by decide) hread]
      rfl
  unfold skipDate
  rw [hday]
  exact hclock

theorem readField_minus (width low high : Nat) (s : List Char) :
    readField (width + 1) low high ('-' :: s) = none := by
  refine if_neg ?_
  rintro ⟨_, hall, _⟩
  rw [List.take_succ_cons, List.all_cons] at hall
  exact absurd hall (by simp [isDecimalDigit])

theorem skipDate_minus (s : List Char) : skipDate ('-' :: s) = none := by
  unfold skipDate skipDay skipClock
  rw [readField_minus, readField_minus]
  rfl

theorem isDigit_toDigits (n : Nat) : ∀ c ∈ Nat.toDigits 10 n, c.isDigit := fun _ =>
  Nat.isDigit_of_mem_toDigits (by decide) (by decide)

theorem digitsValue_toDigits (n : Nat) : digitsValue 10 (Nat.toDigits 10 n) = n := by
  have hsame : digitsValue 10 (Nat.toDigits 10 n) = Nat.ofDigitChars 10 (Nat.toDigits 10 n) 0 := by
    refine List.foldl_ext _ _ 0 fun value c hc => ?_
    rw [digitValue, isDecimalDigit_eq, if_pos (isDigit_toDigits n c hc), Nat.mul_comm]
  rw [hsame, Nat.ofDigitChars_ten_toDigits]

/-- Only zero is written with a zero in front. -/
theorem toDigits_head {n : Nat} {digits : List Char} (h : Nat.toDigits 10 n = '0' :: digits) :
    n = 0 ∧ digits = [] := by
  induction n using Nat.strongRecOn generalizing digits with
  | ind n ih =>
    rw [Nat.toDigits_eq_if (by decide)] at h
    split at h
    next hlt =>
      have hsmall : ∀ d < 10, d.digitChar = '0' → d = 0 := by decide
      rw [List.cons.injEq] at h
      exact ⟨hsmall n hlt h.1, h.2.symm⟩
    next hge =>
      cases htens : Nat.toDigits 10 (n / 10) with
      | nil => exact absurd htens Nat.toDigits_ne_nil
      | cons d tens =>
        rw [htens, List.cons_append, List.cons.injEq] at h
        obtain ⟨rfl, _⟩ := h
        obtain ⟨hzero, _⟩ := ih (n / 10) (by omega) htens
        omega

theorem readWhole_toDigits (n : Nat) {rest : List Char} (h : LineEnd rest) :
    readWhole (Nat.toDigits 10 n ++ rest) = some (Nat.toDigits 10 n, rest) := by
  have hdigits := isDigit_toDigits n
  cases hd : Nat.toDigits 10 n with
  | nil => exact absurd hd Nat.toDigits_ne_nil
  | cons d digits =>
    rw [hd] at hdigits
    by_cases hzero : d = '0'
    · subst hzero
      rw [(toDigits_head hd).2]
      rfl
    · have htail := readDigits_append (fun c hc => hdigits c (List.mem_cons_of_mem d hc)) h
      rw [List.cons_append, readWhole.eq_def]
      split
      next heq =>
        cases heq
        exact absurd rfl hzero
      next =>
        rw [readDigits1, htail]
        exact if_pos (hdigits d (by simp))

theorem readDecimal_toDigits (negative : Bool) (n : Nat) {rest : List Char} (h : LineEnd rest) :
    readDecimal negative (Nat.toDigits 10 n ++ rest) =
      (integerValue (if negative then -n else n)).map (·, rest) := by
  have hfraction : readFraction rest = none := by
    cases h with
    | nil => rfl
    | newline s => rfl
  have hexponent : readExponent rest = none := by
    cases h with
    | nil => rfl
    | newline s => rfl
  unfold readDecimal
  simp only [readWhole_toDigits n h, hfraction, hexponent, Option.bind_eq_bind, Option.bind_some,
    digitsValue_toDigits]
  cases integerValue (if negative then -(n : Int) else n) with
  | none => rfl
  | some value => rfl

theorem toDigits_append_head {n : Nat} {rest s : List Char} {c : Char}
    (heq : Nat.toDigits 10 n ++ rest = c :: s) : c.isDigit := by
  have hdigits := isDigit_toDigits n
  cases hd : Nat.toDigits 10 n with
  | nil => exact absurd hd Nat.toDigits_ne_nil
  | cons d digits =>
    rw [hd] at heq hdigits
    cases heq
    exact hdigits c (by simp)

/-- After its first digit a plain number goes on with a digit, or the line ends. -/
theorem toDigits_append_second {n : Nat} {rest s : List Char} {c d : Char} (h : LineEnd rest)
    (heq : Nat.toDigits 10 n ++ rest = c :: d :: s) : d.isDigit ∨ d = '\n' := by
  have hdigits := isDigit_toDigits n
  cases hd : Nat.toDigits 10 n with
  | nil => exact absurd hd Nat.toDigits_ne_nil
  | cons first digits =>
    rw [hd] at heq hdigits
    cases digits with
    | nil =>
      cases heq
      cases h
      exact Or.inr rfl
    | cons second digits =>
      cases heq
      exact Or.inl (hdigits d (by simp))

theorem readUnsigned_toDigits (negative : Bool) (n : Nat) {rest : List Char} (h : LineEnd rest) :
    readUnsigned negative (Nat.toDigits 10 n ++ rest) =
      (integerValue (if negative then -n else n)).map (·, rest) := by
  rw [← readDecimal_toDigits negative n h, readUnsigned.eq_def]
  split
  next heq => exact absurd (toDigits_append_head heq) (by decide)
  next heq => exact absurd (toDigits_append_head heq) (by decide)
  next => rfl

theorem readNumber_toDigits (n : Nat) {rest : List Char} (h : LineEnd rest) :
    readNumber (Nat.toDigits 10 n ++ rest) = (integerValue n).map (·, rest) := by
  have hread := readUnsigned_toDigits false n h
  simp only [Bool.false_eq_true, if_false] at hread
  rw [← hread, readNumber.eq_def, skipDate_digits (isDigit_toDigits n) h]
  simp only
  split
  next heq => exact absurd (toDigits_append_second h heq) (by decide)
  next heq => exact absurd (toDigits_append_second h heq) (by decide)
  next heq => exact absurd (toDigits_append_second h heq) (by decide)
  next heq => exact absurd (toDigits_append_head heq) (by decide)
  next heq => exact absurd (toDigits_append_head heq) (by decide)
  next => rfl

theorem toString_int_cases (n : Int) :
    (toString n).toList = Nat.toDigits 10 n.toNat ∧ (n.toNat : Int) = n ∨
      (toString n).toList = '-' :: Nat.toDigits 10 (-n).toNat ∧ -((-n).toNat : Int) = n := by
  rw [Int.toString_eq_repr, Int.repr_eq_if]
  split
  next hpos =>
    left
    exact ⟨by rw [Nat.repr_eq_ofList_toDigits, String.toList_ofList], Int.toNat_of_nonneg hpos⟩
  next hneg =>
    right
    refine ⟨?_, by omega⟩
    have hsign : ("-" : String).toList = ['-'] := rfl
    rw [Nat.repr_eq_ofList_toDigits, String.toList_append, hsign, String.toList_ofList]
    rfl

/-- A whole number in plain decimal reads back, unless it does not fit 64 bits. -/
theorem readNumber_int (n : Int) {rest : List Char} (h : LineEnd rest) :
    readNumber ((toString n).toList ++ rest) = (integerValue n).map (·, rest) := by
  rcases toString_int_cases n with ⟨htext, hvalue⟩ | ⟨htext, hvalue⟩
  · rw [htext, readNumber_toDigits n.toNat h, hvalue]
  · have hread := readUnsigned_toDigits true (-n).toNat h
    simp only [if_true, hvalue] at hread
    rw [htext, List.cons_append, readNumber, skipDate_minus]
    exact hread

theorem toString_int_head {n : Int} {rest s : List Char} {c : Char}
    (heq : (toString n).toList ++ rest = c :: s) : c.isDigit ∨ c = '-' := by
  rcases toString_int_cases n with ⟨htext, _⟩ | ⟨htext, _⟩
  · rw [htext] at heq
    exact Or.inl (toDigits_append_head heq)
  · rw [htext] at heq
    cases heq
    exact Or.inr rfl

theorem readString_int (n : Int) (rest : List Char) :
    readString ((toString n).toList ++ rest) = none := by
  rw [readString.eq_def]
  split
  next heq => exact absurd (toString_int_head heq) (by decide)
  next heq => exact absurd (toString_int_head heq) (by decide)
  next heq => exact absurd (toString_int_head heq) (by decide)
  next heq => exact absurd (toString_int_head heq) (by decide)
  next => rfl

theorem readValue_int (depth : Nat) (n : Int) {rest : List Char} (h : LineEnd rest) :
    readValue depth ((toString n).toList ++ rest) = (integerValue n).map (·, rest) := by
  have hscalar : readScalar ((toString n).toList ++ rest) = (integerValue n).map (·, rest) := by
    rw [← readNumber_int n h, readScalar.eq_def]
    split
    next heq => exact absurd (toString_int_head heq) (by decide)
    next heq => exact absurd (toString_int_head heq) (by decide)
    next =>
      rw [readString_int]
  rw [← hscalar, readValue.eq_def]
  split
  next heq => exact absurd (toString_int_head heq) (by decide)
  next heq => exact absurd (toString_int_head heq) (by decide)
  next => rfl

theorem readValue_bool (depth : Nat) (b : Bool) (rest : List Char) :
    readValue depth ((toString b).toList ++ rest) = some (.boolean b, rest) := by
  cases b with
  | false => cases depth <;> rfl
  | true => cases depth <;> rfl

end ThreadSoup.Toml

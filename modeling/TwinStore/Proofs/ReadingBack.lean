import TwinStore.Proofs.Scopes
import TwinStore.Text.Codec

/-!
# What is written is read back

Keys are written as text, plain or as JSON, and a scope records them after the identifier of their
map. Here it is shown that nothing is lost by this: numbers are read back from their digits, plain
(`Decimal.read_ofInt`) and in JSON (`Text.Json.readInt_ofInt`), texts from their quotes and escapes
(`Text.Quoted.read_flatMap_escape`), and so keys of every type that a codec is for
(`KeyCodec.decode_encode`). As an identifier holds no separator, a member of a scope is then split
where its identifier ends, whatever the key holds, and stands for one key of one map
(`scope_members_read_back`).

What reads a part of a JSON text leaves the rest, so each lemma is about a written value with any
rest after it. A number has no closing mark: it ends where no rest could belong to it
(`Text.Json.EndsNumber`).
-/

namespace TwinStore

open Text

/-! ## Digits -/

namespace Decimal

theorem isDigit_of_mem_ofNat {n : Nat} {c : Char} (h : c ∈ ofNat n) : c.isDigit = true :=
  Nat.isDigit_of_mem_toDigits (by decide) (by decide) h

/-- The digits of a number begin with one, which is a zero only if the number is. -/
theorem exists_ofNat_eq_cons (n : Nat) :
    ∃ c cs, ofNat n = c :: cs ∧ c.isDigit = true ∧ (c = '0' → n = 0) := by
  induction n using Nat.strongRecOn with
  | ind n ih =>
    have hdigits : ofNat n = if n < 10 then [n.digitChar] else
        ofNat (n / 10) ++ [(n % 10).digitChar] := Nat.toDigits_eq_if (by decide)
    split at hdigits
    case isTrue hlt =>
      exact ⟨n.digitChar, [], hdigits, by simp [hlt], Nat.digitChar_eq_zero.1⟩
    case isFalse hge =>
      obtain ⟨c, cs, hcs, hc, hzero⟩ := ih (n / 10) (by omega)
      refine ⟨c, cs ++ [(n % 10).digitChar], by rw [hdigits, hcs]; rfl, hc, fun h => ?_⟩
      have := hzero h
      omega

/-- Reading digits takes a value nowhere but up. -/
theorem le_ofDigitChars (cs : List Char) (value : Nat) : value ≤ Nat.ofDigitChars 10 cs value := by
  induction cs generalizing value with
  | nil => simp
  | cons c cs ih =>
    rw [Nat.ofDigitChars_cons]
    have := ih (10 * value + (c.toNat - '0'.toNat))
    omega

/-- Digits are read to their end if their value stays in the range. -/
theorem readDigits_eq {limit value : Nat} {beyond : Flaw} {cs : List Char}
    (hdigits : ∀ c ∈ cs, c.isDigit = true) (hle : Nat.ofDigitChars 10 cs value ≤ limit) :
    readDigits limit beyond value cs = .ok (Nat.ofDigitChars 10 cs value) := by
  induction cs generalizing value with
  | nil => simp [readDigits]
  | cons c cs ih =>
    obtain ⟨hc, hcs⟩ := List.forall_mem_cons.1 hdigits
    rw [Nat.ofDigitChars_cons] at hle ⊢
    have hnext : 10 * value + digit c ≤ limit := Nat.le_trans (le_ofDigitChars cs _) hle
    rw [readDigits, if_pos hc]
    exact (if_pos hnext).trans (ih hcs hle)

theorem readDigits_ofNat {limit n : Nat} {beyond : Flaw} (hle : n ≤ limit) :
    readDigits limit beyond 0 (ofNat n) = .ok n := by
  have hvalue : Nat.ofDigitChars 10 (ofNat n) 0 = n := Nat.ofDigitChars_ten_toDigits
  rw [readDigits_eq (fun c => isDigit_of_mem_ofNat) (by rwa [hvalue]), hvalue]

/-- Without a sign, a text is read as digits. -/
theorem read_unsigned {range : Range} {c : Char} {cs : List Char} (hc : c.isDigit = true) :
    read range (c :: cs) = Int.ofNat <$> readDigits range.top .tooLarge 0 (c :: cs) := by
  unfold read
  split <;> simp_all

/-- After a minus sign, a text is read as digits, where there are numbers below zero. -/
theorem read_negative {range : Range} {bottom : Nat} {c : Char} {cs : List Char}
    (hbottom : range.bottom = some bottom) :
    read range ('-' :: c :: cs) =
      (fun n => -Int.ofNat n) <$> readDigits bottom .tooSmall 0 (c :: cs) := by
  unfold read
  simp [hbottom]

/-- A number of a range is read back. -/
theorem read_ofInt {range : Range} {n : Int} (h : range.contains n = true) :
    read range (ofInt n) = .ok n := by
  cases n with
  | ofNat n =>
    have hle : n ≤ range.top := by simpa [Range.contains] using h
    obtain ⟨c, cs, hcs, hc, -⟩ := exists_ofNat_eq_cons n
    change read range (ofNat n) = _
    rw [hcs, read_unsigned hc, ← hcs, readDigits_ofNat hle]
    rfl
  | negSucc n =>
    obtain ⟨bottom, hbottom, hle⟩ : ∃ b, range.bottom = some b ∧ n + 1 ≤ b := by
      simpa [Range.contains, Option.any_eq_true] using h
    obtain ⟨c, cs, hcs, -⟩ := exists_ofNat_eq_cons (n + 1)
    change read range ('-' :: ofNat (n + 1)) = _
    rw [hcs, read_negative hbottom, ← hcs, readDigits_ofNat hle]
    rfl

end Decimal

/-! ## Numbers in JSON -/

namespace Text.Json

theorem skipBlank_cons {c : Char} (cs : List Char) (h : isBlank c = false) :
    skipBlank (c :: cs) = c :: cs := by
  simp [skipBlank, h]

theorem isBlank_of_isDigit {c : Char} (h : c.isDigit = true) : isBlank c = false := by
  rw [Char.isDigit_iff_toNat] at h
  unfold isBlank
  simp only [Bool.or_eq_false_iff, beq_eq_false_iff_ne]
  refine ⟨⟨⟨?_, ?_⟩, ?_⟩, ?_⟩ <;>
  · rintro rfl
    revert h
    decide

/-- A whole number ends where this text begins. -/
def EndsNumber (rest : List Char) : Prop :=
  ∀ c ∈ rest.head?, c.isDigit = false ∧ c ≠ '.' ∧ c ≠ 'e' ∧ c ≠ 'E'

variable {rest : List Char}

/-- Digits are taken up to the end of their number. -/
theorem span_digits {cs : List Char} (hdigits : ∀ c ∈ cs, c.isDigit = true)
    (hrest : EndsNumber rest) : (cs ++ rest).takeWhile Char.isDigit = cs ∧
      (cs ++ rest).dropWhile Char.isDigit = rest := by
  rw [List.takeWhile_append_of_pos hdigits, List.dropWhile_append_of_pos hdigits]
  cases rest with
  | nil => simp
  | cons c rest =>
    have hc := (hrest c rfl).1
    simp [hc]

/-- No digit is beyond 64 bits if the value is not. -/
theorem significand_eq {cs : List Char} {value : Nat}
    (hle : Nat.ofDigitChars 10 cs value ≤ Decimal.Range.word64.top) :
    significand value cs = (Nat.ofDigitChars 10 cs value, 0) := by
  induction cs generalizing value with
  | nil => simp [significand]
  | cons c cs ih =>
    rw [Nat.ofDigitChars_cons] at hle ⊢
    have hnext : 10 * value + Decimal.digit c ≤ Decimal.Range.word64.top :=
      Nat.le_trans (Decimal.le_ofDigitChars cs _) hle
    rw [← ih hle]
    unfold significand
    simp only [List.foldl_cons, hnext]
    rfl

theorem readTail_positive (value : Nat) (hrest : EndsNumber rest) :
    readTail true value 0 rest = .ok (.natural value, rest) := by
  unfold readTail
  split
  · exact absurd rfl (hrest _ rfl).2.1
  · exact absurd rfl (hrest _ rfl).2.2.1
  · exact absurd rfl (hrest _ rfl).2.2.2
  · rfl

theorem readTail_negative {value : Nat} (hpos : 0 < value)
    (hle : Decimal.Range.signed64.contains (-value) = true) (hrest : EndsNumber rest) :
    readTail false value 0 rest = .ok (.negative (-value), rest) := by
  unfold readTail
  split
  · exact absurd rfl (hrest _ rfl).2.1
  · exact absurd rfl (hrest _ rfl).2.2.1
  · exact absurd rfl (hrest _ rfl).2.2.2
  · simp [hpos, hle]

theorem readNumber_cons (isPositive : Bool) {c : Char} {cs : List Char} (hc : c.isDigit = true)
    (hzero : c ≠ '0') :
    let digits := (c :: cs).takeWhile Char.isDigit
    readNumber isPositive (c :: cs) = readTail isPositive (significand 0 digits).1
      (significand 0 digits).2 ((c :: cs).dropWhile Char.isDigit) := by
  unfold readNumber
  split
  case h_1 h => cases h
  case h_2 h => exact absurd (List.cons.inj h).1 hzero
  case h_3 h =>
    obtain ⟨rfl, rfl⟩ := List.cons.inj h
    exact if_pos hc

/-- The digits of a number are read, and then what follows them. -/
theorem readNumber_ofNat (isPositive : Bool) {n : Nat} (hle : n ≤ Decimal.Range.word64.top)
    (hrest : EndsNumber rest) :
    readNumber isPositive (Decimal.ofNat n ++ rest) = readTail isPositive n 0 rest := by
  obtain ⟨c, cs, hcs, hc, hzero⟩ := Decimal.exists_ofNat_eq_cons n
  by_cases h0 : c = '0'
  · -- A zero stands alone.
    obtain rfl := hzero h0
    change readNumber isPositive ('0' :: rest) = _
    cases rest with
    | nil => rfl
    | cons d rest =>
      have hd : d.isDigit = false := (hrest d rfl).1
      simp [readNumber, hd]
  · have hvalue : Nat.ofDigitChars 10 (Decimal.ofNat n) 0 = n := Nat.ofDigitChars_ten_toDigits
    have hsignificand : significand 0 (Decimal.ofNat n) = (n, 0) := by
      rw [significand_eq (by rwa [hvalue]), hvalue]
    obtain ⟨htake, hdrop⟩ := span_digits (fun c => Decimal.isDigit_of_mem_ofNat (n := n)) hrest
    rw [hcs] at hsignificand htake hdrop ⊢
    rw [List.cons_append] at htake hdrop ⊢
    rw [readNumber_cons isPositive hc h0, htake, hdrop, hsignificand]

/-- All numbers of the range are of 64 bits. -/
structure Fits64 (range : Decimal.Range) : Prop where
  top : range.top ≤ Decimal.Range.word64.top
  bottom : ∀ b ∈ range.bottom, b ≤ 0x8000000000000000

theorem readInt_natural {range : Decimal.Range} {c : Char} {cs : List Char} {n : Nat}
    (hc : c.isDigit = true) (hnumber : readNumber true (c :: cs) = .ok (.natural n, rest))
    (hn : range.contains n = true) : readInt range (c :: cs) = .ok ((n : Int), rest) := by
  unfold readInt
  rw [skipBlank_cons cs (isBlank_of_isDigit hc)]
  dsimp only
  split
  case h_1 h =>
    obtain ⟨rfl, -⟩ := List.cons.inj h
    exact absurd hc (by decide)
  case h_2 h =>
    obtain ⟨rfl, rfl⟩ := List.cons.inj h
    rw [if_pos hc, hnumber]
    exact if_pos hn
  case h_3 h => cases h

theorem readInt_negative {range : Decimal.Range} {cs : List Char} {n : Int}
    (hnumber : readNumber false cs = .ok (.negative n, rest))
    (hn : range.contains n = true) : readInt range ('-' :: cs) = .ok (n, rest) := by
  unfold readInt
  rw [skipBlank_cons cs (by decide)]
  change (readNumber false cs).andThen _ = _
  rw [hnumber]
  exact if_pos hn

theorem fits64_word32 : Fits64 .word32 := ⟨by decide, nofun⟩

/-- A number of a range is read back, and then what follows it. -/
theorem readInt_ofInt {range : Decimal.Range} {n : Int} (hrange : Fits64 range)
    (h : range.contains n = true) (hrest : EndsNumber rest) :
    readInt range (Decimal.ofInt n ++ rest) = .ok (n, rest) := by
  cases n with
  | ofNat n =>
    have hle : n ≤ range.top := by simpa [Decimal.Range.contains] using h
    have hnumber := readNumber_ofNat true (Nat.le_trans hle hrange.top) hrest
    rw [readTail_positive n hrest] at hnumber
    obtain ⟨c, cs, hcs, hc, -⟩ := Decimal.exists_ofNat_eq_cons n
    change readInt range (Decimal.ofNat n ++ rest) = _
    rw [hcs] at hnumber ⊢
    exact readInt_natural hc hnumber h
  | negSucc n =>
    obtain ⟨bottom, hbottom, hle⟩ : ∃ b, range.bottom = some b ∧ n + 1 ≤ b := by
      simpa [Decimal.Range.contains, Option.any_eq_true] using h
    have hbound : n + 1 ≤ 0x8000000000000000 := Nat.le_trans hle (hrange.bottom bottom hbottom)
    have hnumber := readNumber_ofNat false (n := n + 1)
      (Nat.le_trans hbound (by decide)) hrest
    rw [readTail_negative (Nat.succ_pos n) _ hrest] at hnumber
    · exact readInt_negative hnumber h
    · change Decimal.Range.signed64.contains (.negSucc n) = true
      exact decide_eq_true hbound

end Text.Json

/-! ## Text in quotes -/

namespace Text.Quoted

variable {c x : Char} {rest after : List Char}

theorem read_quote (rest : List Char) : read ('"' :: rest) = .ok ([], rest) := by
  rw [read]
  simp

/-- A character that is neither a quote, a backslash nor a control is read as itself. -/
theorem read_plain (hquote : c ≠ '"') (hslash : c ≠ '\\') (hcontrol : 0x20 ≤ c.toNat) :
    read (c :: rest) = (read rest).map (c :: ·) := by
  rw [read, if_neg hquote, if_neg hslash, if_neg (Nat.not_lt.2 hcontrol)]

/-- A backslash and an escape are read as the character the escape is for. -/
theorem read_escaped (h : readEscape rest = .ok (x, after)) :
    read ('\\' :: rest) = (read after).map (x :: ·) := by
  rw [read, if_neg (by decide), if_pos rfl]
  split
  case h_1 h' => cases h.symm.trans h'
  case h_2 h' =>
    obtain ⟨rfl, rfl⟩ := Prod.mk.inj (Except.ok.inj (h.symm.trans h'))
    rfl

theorem hexDigit?_digitChar {d : Nat} (h : d < 16) : hexDigit? d.digitChar = some d := by
  have hall : ∀ d < 16, hexDigit? (Nat.digitChar d) = some d := by decide
  exact hall d h

theorem readHex_four {a b c d : Char} {n : Nat} (h : hexValue? a b c d = some n)
    (rest : List Char) : readHex (a :: b :: c :: d :: rest) = .ok (n, rest) := by
  have hsize : ¬ ([a, b, c, d].foldl (fun size c => size + c.utf8Size) 0 < 4) := by
    have ha := a.utf8Size_pos
    have hb := b.utf8Size_pos
    have hc := c.utf8Size_pos
    have hd := d.utf8Size_pos
    simp only [List.foldl_cons, List.foldl_nil]
    omega
  unfold readHex
  refine (if_neg hsize).trans ?_
  simp only [h]

/-- A control character is written as its code. -/
theorem readEscape_code (hcontrol : c.toNat < 0x20) (rest : List Char) :
    readEscape ('u' :: '0' :: '0' :: Nat.digitChar (c.toNat / 16) :: Nat.digitChar (c.toNat % 16) ::
      rest) = .ok (c, rest) := by
  have hvalue : hexValue? '0' '0' (Nat.digitChar (c.toNat / 16)) (Nat.digitChar (c.toNat % 16)) =
      some c.toNat := by
    have hzero : hexDigit? '0' = some 0 := by decide
    unfold hexValue?
    rw [hexDigit?_digitChar (by omega), hexDigit?_digitChar (by omega), hzero]
    simp
    omega
  have htrailing : isTrailing c.toNat = false := by
    simp [isTrailing]
    omega
  have hleading : isLeading c.toNat = false := by
    simp [isLeading]
    omega
  change readCode _ = _
  unfold readCode
  rw [readHex_four hvalue]
  change (if isTrailing c.toNat = true then _ else _) = _
  rw [htrailing, hleading, Char.ofNat_toNat]
  rfl

/-- A character is read back as it is written. -/
theorem read_escape (c : Char) (rest : List Char) :
    read (escape c ++ rest) = (read rest).map (c :: ·) := by
  unfold escape
  split
  case h_8 hquote hslash _ _ _ _ _ =>
    split
    case isTrue hcontrol => exact read_escaped (readEscape_code hcontrol rest)
    case isFalse hcontrol => exact read_plain hquote hslash (Nat.not_lt.1 hcontrol)
  all_goals exact read_escaped rfl

/-- A text is read back up to its closing quote. -/
theorem read_flatMap_escape (text rest : List Char) :
    read (text.flatMap escape ++ '"' :: rest) = .ok (text, rest) := by
  induction text with
  | nil => exact read_quote rest
  | cons c text ih =>
    rw [List.flatMap_cons, List.append_assoc, read_escape, ih]
    rfl

end Text.Quoted

/-! ## Data in JSON -/

namespace Text.Json

variable {rest : List Char}

/-- A text in quotes is read back, and then what follows it. -/
theorem readString_write (s : String) (rest : List Char) :
    readString (Quoted.write s.toList ++ rest) = .ok (s, rest) := by
  have htext : Quoted.write s.toList ++ rest =
      '"' :: (s.toList.flatMap Quoted.escape ++ '"' :: rest) := by
    simp [Quoted.write]
  unfold readString
  rw [htext, skipBlank_cons _ (by decide)]
  change (Quoted.read _).map String.ofList = _
  rw [Quoted.read_flatMap_escape]
  change Except.ok (String.ofList s.toList, rest) = _
  rw [String.ofList_toList]

section Elements

variable {α : Type} {default : Except Flaw α} {read : List Char → Read α} {c : Char}
  {cs : List Char}

/-- The first element of an array follows the opening bracket. -/
theorem readElement_first (hblank : isBlank c = false) (hclose : c ≠ ']') :
    readElement true default read (c :: cs) = read (c :: cs) := by
  have hnext : nextElement true (c :: cs) = .ok (true, c :: cs) := by
    unfold nextElement
    rw [skipBlank_cons cs hblank]
    split
    case h_1 h => cases h
    case h_2 h => exact absurd (List.cons.inj h).1 hclose
    case h_3 h =>
      rw [← h]
      rfl
  unfold readElement
  rw [hnext]
  rfl

/-- Any element of an array but the first follows a comma. -/
theorem readElement_next (hblank : isBlank c = false) (hclose : c ≠ ']') :
    readElement false default read (',' :: c :: cs) = read (c :: cs) := by
  have hnext : nextElement false (',' :: c :: cs) = .ok (true, c :: cs) := by
    unfold nextElement
    rw [skipBlank_cons _ (by decide)]
    simp [skipBlank_cons cs hblank, hclose]
  unfold readElement
  rw [hnext]
  rfl

end Elements

end Text.Json

namespace Shape

open Json

theorem toList_decimal (n : Int) : (Datum.decimal n).toList = Decimal.ofInt n :=
  String.toList_ofList

theorem toList_quoted (s : String) : (Datum.quoted s).toList = Quoted.write s.toList :=
  String.toList_ofList

/-- A text with a number is read back from JSON. -/
theorem readJson_pair (s : String) {n : Nat} (h : Decimal.Range.word32.contains n = true) :
    Shape.pair.readJson (Datum.toJson (.pair s n)).toList = .ok (.pair s n, []) := by
  have htext : (Datum.toJson (.pair s n)).toList =
      '[' :: (Quoted.write s.toList ++ ',' :: (Decimal.ofInt n ++ [']'])) := by
    simp [Datum.toJson, toList_decimal, toList_quoted]
  have hends : EndsNumber [']'] := by
    rintro c ⟨⟩
    decide
  have hfirst : readElement true (.error .unfit) readString
      (Quoted.write s.toList ++ ',' :: (Decimal.ofInt n ++ [']'])) =
        .ok (s, ',' :: (Decimal.ofInt n ++ [']'])) := by
    rw [← readString_write]
    exact readElement_first (by decide) (by decide)
  have hsecond : readElement false (.error .unfit) (readNat .word32)
      (',' :: (Decimal.ofInt n ++ [']'])) = .ok (n, [']']) := by
    obtain ⟨c, cs, hcs, hc, -⟩ := Decimal.exists_ofNat_eq_cons n
    have hnumber : readNat .word32 (Decimal.ofInt n ++ [']']) = .ok (n, [']']) := by
      unfold readNat
      rw [readInt_ofInt fits64_word32 h hends]
      rfl
    rw [← hnumber]
    change readElement _ _ _ (',' :: (Decimal.ofNat n ++ [']'])) =
      readNat _ (Decimal.ofNat n ++ [']'])
    rw [hcs]
    refine readElement_next (isBlank_of_isDigit hc) ?_
    rintro rfl
    exact absurd hc (by decide)
  unfold readJson
  rw [htext]
  unfold readPair
  rw [skipBlank_cons _ (by decide)]
  change (readElement true _ _ _).andThen _ = _
  rw [hfirst]
  change (readElement false _ _ _).andThen _ = _
  rw [hsecond]
  rfl

/-- The shapes of numbers. -/
def IsNumeric (shape : Shape) : Prop :=
  shape = byte ∨ shape = natural ∨ shape = integer

theorem fits64_range (shape : Shape) : Fits64 shape.range := by
  cases shape <;> exact ⟨by decide, by decide⟩

/-- A number is read back, plain. -/
theorem readPlain_int {shape : Shape} {n : Int} (hshape : shape.IsNumeric)
    (h : shape.range.contains n = true) :
    shape.readPlain (Datum.decimal n) = .ok (.int n) := by
  have hread := Decimal.read_ofInt h
  unfold readPlain
  rw [toList_decimal, hread]
  obtain rfl | rfl | rfl := hshape <;> rfl

/-- A number is read back from JSON. -/
theorem readJson_int {shape : Shape} {n : Int} (hshape : shape.IsNumeric)
    (h : shape.range.contains n = true) :
    shape.readJson (Datum.decimal n).toList = .ok (.int n, []) := by
  have hends : EndsNumber [] := nofun
  have hread := readInt_ofInt shape.fits64_range h hends
  rw [List.append_nil] at hread
  have hjson : shape.readJson (Datum.decimal n).toList =
      (readInt shape.range (Datum.decimal n).toList).map .int := by
    obtain rfl | rfl | rfl := hshape <;> rfl
  rw [hjson, toList_decimal, hread]
  rfl

/-- A text is read back from JSON. -/
theorem readJson_text (s : String) :
    Shape.text.readJson (Datum.quoted s).toList = .ok (.text s, []) := by
  have hread := readString_write s []
  rw [List.append_nil] at hread
  change (readString _).map Datum.text = _
  rw [toList_quoted, hread]
  rfl

end Shape

/-! ## Keys -/

namespace KeyCodec

/-- The keys of the type that a codec is for. A text with a number has no plain form. -/
def Suits (c : KeyCodec) : Key → Prop
  | .text _ => c.shape = .text
  | .number n => c.shape.IsNumeric ∧ c.shape.range.contains n = true
  | .pair _ n => c.format = .json ∧ c.shape = .pair ∧ Decimal.Range.word32.contains n = true

variable {c : KeyCodec} {k : Key}

theorem decode_of_format (h : c.format.decode c.shape (c.encode k) = .ok k.toDatum) :
    c.decode (c.encode k) = .ok k := by
  unfold decode
  rw [h]
  simp

theorem decode_of_plain (hformat : c.format = .plain)
    (h : c.shape.readPlain k.toDatum.toPlain = .ok k.toDatum) :
    c.decode (c.encode k) = .ok k := by
  refine decode_of_format ?_
  unfold encode
  rw [hformat]
  unfold Format.decode
  simp only [Format.encode, h]

theorem decode_of_json (hformat : c.format = .json)
    (h : c.shape.readJson k.toDatum.toJson.toList = .ok (k.toDatum, [])) :
    c.decode (c.encode k) = .ok k := by
  refine decode_of_format ?_
  unfold encode
  rw [hformat]
  unfold Format.decode Json.readAll
  simp only [Format.encode, h]
  rfl

/-- Keys are read back as they are written. -/
theorem decode_encode (h : c.Suits k) : c.decode (c.encode k) = .ok k := by
  cases hformat : c.format with
  | plain =>
    refine decode_of_plain hformat ?_
    cases k with
    | text s =>
      rw [show c.shape = .text from h]
      rfl
    | number n => exact Shape.readPlain_int h.1 h.2
    | pair s n => cases hformat.symm.trans h.1
  | json =>
    refine decode_of_json hformat ?_
    cases k with
    | text s =>
      rw [show c.shape = .text from h]
      exact Shape.readJson_text s
    | number n => exact Shape.readJson_int h.1 h.2
    | pair s n =>
      obtain ⟨-, hshape, hn⟩ := h
      rw [hshape]
      exact Shape.readJson_pair s hn

end KeyCodec

/-! ## Members of a scope -/

/-- **What a scope records can be read back.** A key of the type that a codec is for can be written,
and under an accepted identifier its member is split into the identifier and the written key, which
is read back as the key. No other identifier and no other key have the same member. -/
theorem scope_members_read_back (c : KeyCodec) (mapId : String)
    (hid : Scope.checkIdentifier "map" mapId = .ok ()) (k : Key) (hk : c.Suits k) :
    ∃ raw, c.serializer.encode k = .ok raw ∧
      Scope.split? (Scope.member mapId raw) = some (mapId, raw) ∧
      c.serializer.decode raw = .ok k ∧
      ∀ mapId' k' raw', Scope.checkIdentifier "map" mapId' = .ok () → c.Suits k' →
        c.serializer.encode k' = .ok raw' →
        Scope.member mapId' raw' = Scope.member mapId raw → mapId' = mapId ∧ k' = k := by
  have hsplit (id raw : String) (hid : Scope.checkIdentifier "map" id = .ok ()) :
      Scope.split? (Scope.member id raw) = some (id, raw) :=
    Scope.split?_member (Scope.not_mem_of_checkIdentifier hid) raw
  refine ⟨c.encode k, rfl, hsplit mapId _ hid, KeyCodec.decode_encode hk, ?_⟩
  intro mapId' k' raw' hid' hk' hraw' hmember
  obtain rfl : c.encode k' = raw' := Except.ok.inj hraw'
  have hparts : some (mapId', c.encode k') = some (mapId, c.encode k) := by
    rw [← hsplit mapId' _ hid', ← hsplit mapId _ hid, hmember]
  obtain ⟨rfl, hraw⟩ := Prod.mk.inj (Option.some.inj hparts)
  have hkey : Except.ok k' = (Except.ok k : Except StoreError Key) := by
    rw [← KeyCodec.decode_encode hk', ← KeyCodec.decode_encode hk, hraw]
  exact ⟨rfl, Except.ok.inj hkey⟩

/-- A key with separators, quotes, a backslash and a control character in it, as JSON. -/
theorem scope_members_read_back_escaped :
    let c : KeyCodec := ⟨.json, .pair⟩
    let k : Key := .pair "a:\"b\\\x01é😀" 4294967295
    let raw := "[\"a:\\\"b\\\\\\u0001é😀\",4294967295]"
    c.Suits k ∧ c.serializer.encode k = .ok raw ∧
      Scope.split? ("users:" ++ raw) = some ("users", raw) ∧ c.serializer.decode raw = .ok k := by
  intro c k raw
  have hk : c.Suits k := ⟨rfl, rfl, by decide⟩
  have hraw : c.encode k = raw := by decide +kernel
  obtain ⟨raw', hencode, hsplit, hdecode, -⟩ := scope_members_read_back c "users" rfl k hk
  obtain rfl : raw = raw' := hraw.symm.trans (Except.ok.inj hencode)
  exact ⟨hk, hencode, hsplit, hdecode⟩

end TwinStore

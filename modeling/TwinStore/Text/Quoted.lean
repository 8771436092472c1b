/-!
# Quoted text

Text between double quotes. A quote, a backslash and the control characters below U+0020 are
escaped, five of those by a letter and the others by `\u` with four hexadecimal digits; all else
stands for itself. Reading also accepts a `\u` escape of any character, in two halves where one is
not enough, and an escaped slash.

Readers work on the characters after the opening quote and answer with what follows the closing one.
-/

namespace TwinStore.Text

/-- Why a text cannot be read: it ends too early, it is malformed, or it is well formed but does
not fit what is wanted. -/
inductive Flaw where
  | truncated
  | malformed
  | unfit
  deriving DecidableEq

/-- What a reader answers: a value and the rest of the text. -/
abbrev Read (α : Type) := Except Flaw (α × List Char)

/-- Read on, with the value read and what follows it. -/
def Read.andThen {α β : Type} (r : Read α) (f : α → List Char → Read β) : Read β :=
  match r with
  | .ok (a, rest) => f a rest
  | .error e => .error e

/-- A value made of the value read. -/
def Read.map {α β : Type} (f : α → β) (r : Read α) : Read β :=
  r.andThen fun a rest => .ok (f a, rest)

theorem Read.andThen_eq_ok {α β : Type} {r : Read α} {f : α → List Char → Read β}
    {p : β × List Char} (h : r.andThen f = .ok p) :
    ∃ a rest, r = .ok (a, rest) ∧ f a rest = .ok p := by
  cases r with
  | error e => cases h
  | ok q => exact ⟨q.1, q.2, rfl, h⟩

namespace Quoted

/-! ## Writing -/

/-- The character `c` between quotes. -/
def escape (c : Char) : List Char :=
  match c with
  | '"' => ['\\', '"']
  | '\\' => ['\\', '\\']
  | '\x08' => ['\\', 'b']
  | '\x0c' => ['\\', 'f']
  | '\n' => ['\\', 'n']
  | '\r' => ['\\', 'r']
  | '\t' => ['\\', 't']
  | _ =>
    if c.toNat < 0x20 then
      ['\\', 'u', '0', '0', Nat.digitChar (c.toNat / 16), Nat.digitChar (c.toNat % 16)]
    else [c]

/-- A text in quotes. -/
def write (text : List Char) : List Char :=
  '"' :: (text.flatMap escape ++ ['"'])

/-! ## Reading -/

/-- The value of a hexadecimal digit. -/
def hexDigit? (c : Char) : Option Nat :=
  if c.isDigit then some (c.toNat - '0'.toNat)
  else if 'a' ≤ c ∧ c ≤ 'f' then some (c.toNat - 'a'.toNat + 10)
  else if 'A' ≤ c ∧ c ≤ 'F' then some (c.toNat - 'A'.toNat + 10)
  else none

/-- The value of four hexadecimal digits. -/
def hexValue? (a b c d : Char) : Option Nat := do
  return ((((← hexDigit? a) * 16 + (← hexDigit? b)) * 16 + (← hexDigit? c)) * 16 + (← hexDigit? d))

/-- Read four hexadecimal digits. A text of fewer than four bytes has ended too early. -/
def readHex (text : List Char) : Read Nat :=
  if (text.take 4).foldl (fun size c => size + c.utf8Size) 0 < 4 then .error .truncated
  else
    match text with
    | a :: b :: c :: d :: rest =>
      match hexValue? a b c d with
      | some n => .ok (n, rest)
      | none => .error .malformed
    | _ => .error .malformed

/-- The first half of a character in two halves. -/
def isLeading (n : Nat) : Bool := 0xd800 ≤ n && n ≤ 0xdbff

/-- The second half of a character in two halves. -/
def isTrailing (n : Nat) : Bool := 0xdc00 ≤ n && n ≤ 0xdfff

/-- Read the second half of a character whose first half was `n`. -/
def readTrailing (n : Nat) (text : List Char) : Read Char :=
  match text with
  | [] => .error .truncated
  | ['\\'] => .error .truncated
  | '\\' :: 'u' :: rest => (readHex rest).andThen fun low rest =>
    if isTrailing low then
      .ok (Char.ofNat (0x10000 + (n - 0xd800) * 0x400 + (low - 0xdc00)), rest)
    else .error .malformed
  | _ => .error .malformed

/-- Read the character after `\u`. -/
def readCode (text : List Char) : Read Char :=
  (readHex text).andThen fun n rest =>
    if isTrailing n then .error .malformed
    else if isLeading n then readTrailing n rest
    else .ok (Char.ofNat n, rest)

/-- The character that a letter after a backslash stands for. -/
def letter? : Char → Option Char
  | '"' => some '"'
  | '\\' => some '\\'
  | '/' => some '/'
  | 'b' => some '\x08'
  | 'f' => some '\x0c'
  | 'n' => some '\n'
  | 'r' => some '\r'
  | 't' => some '\t'
  | _ => none

/-- Read the character after a backslash. -/
def readEscape (text : List Char) : Read Char :=
  match text with
  | [] => .error .truncated
  | c :: rest =>
    if c = 'u' then readCode rest
    else
      match letter? c with
      | some x => .ok (x, rest)
      | none => .error .malformed

theorem readHex_length {text rest : List Char} {n : Nat} (h : readHex text = .ok (n, rest)) :
    rest.length < text.length := by
  unfold readHex at h
  split at h
  · cases h
  · split at h
    · split at h
      · cases h; simp; omega
      · cases h
    · cases h

theorem readTrailing_length {n : Nat} {text rest : List Char} {c : Char}
    (h : readTrailing n text = .ok (c, rest)) : rest.length < text.length := by
  unfold readTrailing at h
  split at h
  · cases h
  · cases h
  · obtain ⟨low, after, hx, h⟩ := Read.andThen_eq_ok h
    have := readHex_length hx
    split at h
    · obtain ⟨-, rfl⟩ := Prod.mk.inj (Except.ok.inj h)
      simp; omega
    · cases h
  · cases h

theorem readCode_length {text rest : List Char} {c : Char} (h : readCode text = .ok (c, rest)) :
    rest.length < text.length := by
  obtain ⟨n, after, hx, h⟩ := Read.andThen_eq_ok h
  have := readHex_length hx
  split at h
  · cases h
  · split at h
    · have := readTrailing_length h; omega
    · cases h; omega

/-- An escape uses text up. -/
theorem readEscape_length {text rest : List Char} {c : Char} (h : readEscape text = .ok (c, rest)) :
    rest.length < text.length := by
  unfold readEscape at h
  split at h
  · cases h
  · split at h
    · have := readCode_length h; simp; omega
    · split at h
      · cases h; simp
      · cases h

/-- Read up to the closing quote. -/
def read (text : List Char) : Read (List Char) :=
  match text with
  | [] => .error .truncated
  | c :: rest =>
    if c = '"' then .ok ([], rest)
    else if c = '\\' then
      match h : readEscape rest with
      | .error e => .error e
      | .ok (x, after) =>
        have : after.length < rest.length + 1 := Nat.lt_succ_of_lt (readEscape_length h)
        (read after).map (x :: ·)
    else if c.toNat < 0x20 then .error .malformed
    else (read rest).map (c :: ·)
termination_by text.length

/-! ## Skipping -/

/-- Skip what follows a backslash, without asking which character it makes. -/
def skipEscape (text : List Char) : Read Unit :=
  match text with
  | [] => .error .truncated
  | c :: rest =>
    if c = 'u' then (readHex rest).map fun _ => ()
    else if (letter? c).isSome then .ok ((), rest)
    else .error .malformed

theorem skipEscape_length {text rest : List Char} (h : skipEscape text = .ok ((), rest)) :
    rest.length < text.length := by
  unfold skipEscape at h
  split at h
  · cases h
  · split at h
    · obtain ⟨n, after, hx, h⟩ := Read.andThen_eq_ok h
      have := readHex_length hx
      cases h; simp; omega
    · split at h
      · cases h; simp
      · cases h

/-- Skip up to the closing quote. -/
def skip (text : List Char) : Read Unit :=
  match text with
  | [] => .error .truncated
  | c :: rest =>
    if c = '"' then .ok ((), rest)
    else if c = '\\' then
      match h : skipEscape rest with
      | .error e => .error e
      | .ok ((), after) =>
        have : after.length < rest.length + 1 := Nat.lt_succ_of_lt (skipEscape_length h)
        skip after
    else if c.toNat < 0x20 then .error .malformed
    else skip rest
termination_by text.length

end Quoted

end TwinStore.Text

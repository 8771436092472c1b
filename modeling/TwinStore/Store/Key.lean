import Std.Data.ExtTreeMap
import Std.Data.ExtTreeSet
import TwinStore.Store.Error

/-!
# Keys

Entries are filed under keys: a text, a number, or a text with a number. `Key` carries a linear
order (`instTransOrdKey`, `instLawfulEqOrdKey`): texts by code point, numbers by value, pairs part
by part. Collections of keys are extensional sorted trees, so that two of them are equal exactly
when they have the same elements.
-/

namespace TwinStore

/-- What an entry is filed under. -/
inductive Key where
  | text (word : String)
  | number (value : Int)
  | pair (word : String) (value : Nat)
  deriving DecidableEq, Inhabited

namespace Key

/-- The position of the key's shape among the three shapes. -/
def shape : Key → Nat
  | text _ => 0
  | number _ => 1
  | pair _ _ => 2

/-- The textual part, empty for a number. -/
def word : Key → String
  | text w => w
  | number _ => ""
  | pair w _ => w

/-- The numeric part, zero for a text. -/
def value : Key → Int
  | text _ => 0
  | number n => n
  | pair _ n => n

/-- A key is determined by its shape and its two parts. -/
theorem eq_of_parts {a b : Key} (hs : a.shape = b.shape) (hw : a.word = b.word)
    (hv : a.value = b.value) : a = b := by
  cases a <;> cases b <;> cases hs
  case text.text => exact congrArg text hw
  case number.number => exact congrArg number hv
  case pair.pair => exact congr (congrArg pair hw) (Int.ofNat_inj.1 hv)

/-- Shape first, then the textual part, then the numeric part. -/
def order : Key → Key → Ordering :=
  compareLex (compareOn shape) (compareLex (compareOn word) (compareOn value))

instance : Ord Key := ⟨order⟩

instance instTransOrdKey : Std.TransOrd Key :=
  inferInstanceAs (Std.TransCmp (compareLex (compareOn shape)
    (compareLex (compareOn word) (compareOn value))))

instance instLawfulEqOrdKey : Std.LawfulEqOrd Key where
  eq_of_compare {a b} h := by
    obtain ⟨hs, hrest⟩ := Ordering.then_eq_eq.1
      (show (compare a.shape b.shape).then ((compare a.word b.word).then
        (compare a.value b.value)) = .eq from h)
    obtain ⟨hw, hv⟩ := Ordering.then_eq_eq.1 hrest
    exact eq_of_parts (Std.LawfulEqOrd.eq_of_compare hs) (Std.LawfulEqOrd.eq_of_compare hw)
      (Std.LawfulEqOrd.eq_of_compare hv)

end Key

/-- A finite map from keys. -/
abbrev KeyMap (α : Type) := Std.ExtTreeMap Key α

/-- A finite set of members. -/
abbrev MemberSet := Std.ExtTreeSet String

/-- What enumerating a store yields: the items in order, and the failure that ended the
enumeration early, if any. -/
structure Listing (α : Type) where
  items : List α
  failure : Option StoreError := none

end TwinStore

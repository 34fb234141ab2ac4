import Mathlib.Data.Nat.Notation
import Mathlib.Tactic.SplitIfs

/-!
# Decimal numerals

A numeral is a row of digits, with at most one underscore between two of them, after
at most one sign. Digits other than the plain ones may count (`DigitClass`), and a
numeral may be refused for its length. A number written with plain digits is read
back (`signed_toString`).
-/

namespace Numeral

/-- Which characters are digits, and of which value. The plain ones are. -/
structure DigitClass where
  value : Char → Option ℕ
  value_of_isDigit : ∀ c, c.isDigit = true → value c = some (c.toNat - '0'.toNat)

/-- The plain digits alone. -/
def DigitClass.ascii : DigitClass where
  value c := if c.isDigit then some (c.toNat - '0'.toNat) else none
  value_of_isDigit _ h := if_pos h

variable (digits : DigitClass)

/-- The digits of the rest of a numeral. `last` says whether the character before it is one. -/
def digitsAfter : Bool → List Char → Option (List ℕ)
  | last, [] => if last then some [] else none
  | last, c :: cs =>
    if c = '_' then
      if last then digitsAfter false cs else none
    else
      (digits.value c).bind fun d => (digitsAfter true cs).map (d :: ·)

/-- The number with these digits, the highest first. -/
def ofDigits (ds : List ℕ) : ℕ :=
  ds.foldl (fun n d => 10 * n + d) 0

/-- A numeral without a sign, of at most `limit` digits unless that is zero. -/
def unsigned (limit : ℕ) (cs : List Char) : Option ℕ :=
  (digitsAfter digits false cs).bind fun ds =>
    if limit ≠ 0 ∧ limit < ds.length then none else some (ofDigits ds)

def signed (limit : ℕ) : List Char → Option Int
  | '-' :: cs => (unsigned digits limit cs).map fun n => -Int.ofNat n
  | '+' :: cs => (unsigned digits limit cs).map Int.ofNat
  | cs => (unsigned digits limit cs).map Int.ofNat

variable {digits}

/-- A number is written with plain digits, after a minus sign if it is negative. -/
theorem isDigit_or_eq_of_mem_toString {n : Int} {c : Char} (h : c ∈ (toString n).toList) :
    c.isDigit = true ∨ c = '-' := by
  have hdigit : ∀ {m : ℕ}, c ∈ m.repr.toList → c.isDigit = true := by
    intro m hc
    rw [Nat.toList_repr] at hc
    exact Nat.isDigit_of_mem_toDigits (by decide) (by decide) hc
  rw [Int.toString_eq_repr, Int.repr_eq_if] at h
  split_ifs at h with hn
  · exact Or.inl (hdigit h)
  · rw [String.toList_append] at h
    rcases List.mem_append.1 h with h | h
    · exact Or.inr (List.mem_singleton.1 h)
    · exact Or.inl (hdigit h)

/-- Plain digits are read one by one. -/
theorem digitsAfter_of_isDigit : ∀ {cs : List Char} {last : Bool},
    (∀ c ∈ cs, c.isDigit = true) → (cs ≠ [] ∨ last = true) →
      digitsAfter digits last cs = some (cs.map fun c => c.toNat - '0'.toNat)
  | [], last, _, hlast => by
    rw [digitsAfter, if_pos (hlast.resolve_left fun h => h rfl)]
    rfl
  | c :: cs, last, hcs, _ => by
    obtain ⟨hc, hcs⟩ := List.forall_mem_cons.1 hcs
    have hne : c ≠ '_' := by
      rintro rfl
      exact absurd hc (by decide)
    rw [digitsAfter, if_neg hne, digits.value_of_isDigit c hc, Option.bind_some,
      digitsAfter_of_isDigit hcs (Or.inr rfl)]
    rfl

theorem ofDigits_map (cs : List Char) :
    ofDigits (cs.map fun c => c.toNat - '0'.toNat) = Nat.ofDigitChars 10 cs 0 := by
  rw [ofDigits, List.foldl_map, Nat.ofDigitChars_eq_foldl]

/-- A number of the permitted length is read back. -/
theorem unsigned_toDigits {limit n : ℕ}
    (h : limit = 0 ∨ (Nat.toDigits 10 n).length ≤ limit) :
    unsigned digits limit (Nat.toDigits 10 n) = some n := by
  have hdigits : ∀ c ∈ Nat.toDigits 10 n, c.isDigit = true := fun c hc =>
    Nat.isDigit_of_mem_toDigits (by decide) (by decide) hc
  rw [unsigned, digitsAfter_of_isDigit hdigits (Or.inl Nat.toDigits_ne_nil), Option.bind_some,
    List.length_map, if_neg (by omega), ofDigits_map, Nat.ofDigitChars_ten_toDigits]

/-- Without a sign in front, a numeral is an unsigned one. -/
theorem signed_of_head {limit : ℕ} {cs : List Char} (hminus : cs.head? ≠ some '-')
    (hplus : cs.head? ≠ some '+') :
    signed digits limit cs = (unsigned digits limit cs).map Int.ofNat := by
  unfold signed
  split
  · exact absurd rfl hminus
  · exact absurd rfl hplus
  · rfl

theorem signed_toString {limit : ℕ} {n : Int}
    (h : limit = 0 ∨ (Nat.toDigits 10 n.natAbs).length ≤ limit) :
    signed digits limit (toString n).toList = some n := by
  have hread : unsigned digits limit (Nat.toDigits 10 n.natAbs) = some n.natAbs :=
    unsigned_toDigits h
  rw [Int.toString_eq_repr, Int.repr_eq_if]
  split_ifs with hn
  · have hdigit : ∀ c, (Nat.toDigits 10 n.natAbs).head? = some c → c.isDigit = true := fun c hc =>
      Nat.isDigit_of_mem_toDigits (by decide) (by decide) (List.mem_of_head? hc)
    have habs : n.toNat = n.natAbs := by omega
    rw [Nat.toList_repr, habs, signed_of_head, hread, Option.map_some]
    · exact congrArg some (Int.natAbs_of_nonneg hn)
    · exact fun hc => absurd (hdigit _ hc) (by decide)
    · exact fun hc => absurd (hdigit _ hc) (by decide)
  · have habs : (-n).toNat = n.natAbs := by omega
    rw [String.toList_append, Nat.toList_repr, habs]
    change (unsigned digits limit (Nat.toDigits 10 n.natAbs)).map _ = _
    rw [hread, Option.map_some]
    exact congrArg some (by simp only [Int.ofNat_eq_natCast]; omega)

end Numeral

import Mathlib.Data.String.Basic
import Mathlib.Tactic.Common

/-!
# The order of texts is that of their bytes

Texts are compared by the numbers of their characters, from the first one on. UTF-8 is made so that
comparing their bytes comes to the same: `compare_eq_lt_iff_bytes_lt`. The bytes of a character are
the digits of its number to base 64 (`spread`), and the first of them is raised by a mark that says
how many follow. A character with more bytes has a greater first byte (`firstByte_lt`), and among
characters with equally many the bytes are ordered as the numbers are (`spread_append_lt`).
-/

namespace Scheduling.Text

/-! ## Numbers in bytes -/

variable {v w mark trail : ℕ} {r s : List UInt8}

/-- Bytes are ordered by the first one, and if that is the same by the others. -/
theorem ofNat_cons_lt (hw : w < 256) (h : v < w ∨ v = w ∧ r < s) :
    UInt8.ofNat v :: r < UInt8.ofNat w :: s := by
  rw [List.cons_lt_cons_iff, UInt8.lt_iff_toNat_lt]
  rcases h with hlt | ⟨rfl, hrest⟩
  · rw [UInt8.toNat_ofNat_of_lt' (Nat.lt_trans hlt hw), UInt8.toNat_ofNat_of_lt' hw]
    exact .inl hlt
  · exact .inr ⟨rfl, hrest⟩

/-- A number in a first byte and `trail` more. The latter hold six bits of it each, and the first
one holds the others and the mark. -/
def spread (mark : ℕ) : ℕ → ℕ → List UInt8
  | 0, v => [.ofNat (mark + v)]
  | trail + 1, v => spread mark trail (v / 64) ++ [.ofNat (128 + v % 64)]

/-- The first byte holds what the others leave over. -/
theorem exists_spread_eq_cons (mark trail v : ℕ) :
    ∃ rest, spread mark trail v = .ofNat (mark + v / 64 ^ trail) :: rest := by
  induction trail generalizing v with
  | zero => exact ⟨[], by rw [spread, Nat.pow_zero, Nat.div_one]⟩
  | succ trail ih =>
    obtain ⟨rest, hrest⟩ := ih (v / 64)
    refine ⟨rest ++ [.ofNat (128 + v % 64)], ?_⟩
    rw [spread, hrest, Nat.div_div_eq_div_mul, ← Nat.pow_succ', List.cons_append]

/-- In equally many bytes the smaller number comes first, whatever follows. -/
theorem spread_append_lt (h : v < w) (hw : mark + w / 64 ^ trail < 256) :
    spread mark trail v ++ r < spread mark trail w ++ s := by
  induction trail generalizing v w r s with
  | zero =>
    rw [Nat.pow_zero, Nat.div_one] at hw
    exact ofNat_cons_lt hw (.inl (Nat.add_lt_add_left h mark))
  | succ trail ih =>
    rw [Nat.pow_succ', ← Nat.div_div_eq_div_mul] at hw
    simp only [spread, List.append_assoc]
    -- the upper digits decide, or they agree and the last one does
    rcases Nat.lt_or_eq_of_le (Nat.div_le_div_right (Nat.le_of_lt h) : v / 64 ≤ w / 64)
      with hupper | hupper
    · exact ih hupper hw
    · rw [hupper]
      exact List.append_left_lt (ofNat_cons_lt (by omega) (.inl (by omega)))

/-! ## Characters in bytes -/

/-- How many bytes follow the first one of the character with a number. -/
def trailing (v : ℕ) : ℕ :=
  if v ≤ 127 then 0 else if v ≤ 2047 then 1 else if v ≤ 65535 then 2 else 3

/-- The mark of a first byte that others follow. -/
def leadMark : ℕ → ℕ
  | 0 => 0
  | 1 => 192
  | 2 => 224
  | _ => 240

/-- The first byte of the character with a number. -/
def firstByte (v : ℕ) : ℕ := leadMark (trailing v) + v / 64 ^ trailing v

/-- A greater number has no fewer bytes. -/
theorem trailing_le_trailing (h : v ≤ w) : trailing v ≤ trailing w := by
  unfold trailing
  split_ifs <;> omega

/-- More bytes have a greater first one. -/
theorem firstByte_lt (h : trailing v < trailing w) : firstByte v < firstByte w := by
  unfold firstByte trailing at *
  split_ifs at * <;> simp only [leadMark] <;> omega

/-- The numbers of characters end below 1114112. -/
theorem char_toNat_lt (c : Char) : c.toNat < 1114112 := by
  have hvalid := c.valid
  unfold UInt32.isValidChar Nat.isValidChar at hvalid
  rw [← Char.toNat_val]
  omega

/-- The first byte of a character is a byte. -/
theorem firstByte_toNat_lt (c : Char) : firstByte c.toNat < 256 := by
  have hlt := char_toNat_lt c
  unfold firstByte trailing
  split_ifs <;> simp only [leadMark] <;> omega

/-- A character is encoded as its number, spread over its bytes. -/
theorem utf8EncodeChar_eq_spread (c : Char) : String.utf8EncodeChar c =
    spread (leadMark (trailing c.toNat)) (trailing c.toNat) c.toNat := by
  have hlt := char_toNat_lt c
  unfold String.utf8EncodeChar trailing
  rw [Char.toNat_val]
  generalize c.toNat = v at hlt ⊢
  simp only
  split_ifs
  · rw [leadMark, spread, Nat.zero_add]
  · have hfirst : v / 64 % 32 + 192 = 192 + v / 64 := by omega
    rw [hfirst, Nat.add_comm _ 128]
    rfl
  · have hfirst : v / 4096 % 16 + 224 = 224 + v / 64 / 64 := by omega
    rw [hfirst, Nat.add_comm _ 128, Nat.add_comm _ 128]
    rfl
  · have hfirst : v / 262144 % 8 + 240 = 240 + v / 64 / 64 / 64 := by omega
    have hsecond : v / 4096 % 64 + 128 = 128 + v / 64 / 64 % 64 := by omega
    rw [hfirst, hsecond, Nat.add_comm _ 128, Nat.add_comm _ 128]
    rfl

/-- The smaller character comes first, whatever follows. -/
theorem utf8EncodeChar_append_lt {c d : Char} (h : c < d) :
    String.utf8EncodeChar c ++ r < String.utf8EncodeChar d ++ s := by
  have hlt : c.toNat < d.toNat := h
  rw [utf8EncodeChar_eq_spread, utf8EncodeChar_eq_spread]
  rcases Nat.lt_or_eq_of_le (trailing_le_trailing (Nat.le_of_lt hlt)) with htrail | htrail
  · obtain ⟨cs, hcs⟩ :=
      exists_spread_eq_cons (leadMark (trailing c.toNat)) (trailing c.toNat) c.toNat
    obtain ⟨ds, hds⟩ :=
      exists_spread_eq_cons (leadMark (trailing d.toNat)) (trailing d.toNat) d.toNat
    rw [hcs, hds]
    exact ofNat_cons_lt (firstByte_toNat_lt d) (.inl (firstByte_lt htrail))
  · rw [htrail]
    exact spread_append_lt hlt (firstByte_toNat_lt d)

/-! ## Texts in bytes -/

/-- The bytes of a text in UTF-8. -/
def bytes (text : String) : List UInt8 := text.toUTF8.data.toList

/-- A text has the bytes of its characters, one after the other. -/
theorem bytes_eq_flatMap (text : String) :
    bytes text = text.toList.flatMap String.utf8EncodeChar := by
  rw [bytes, String.toUTF8_eq_toByteArray, ← String.utf8Encode_toList, List.utf8Encode,
    List.toList_data_toByteArray]

/-- Characters that come first have bytes that do. -/
theorem flatMap_utf8EncodeChar_lt {cs ds : List Char} (h : cs < ds) :
    cs.flatMap String.utf8EncodeChar < ds.flatMap String.utf8EncodeChar := by
  induction h with
  | nil =>
    rw [List.flatMap_nil, List.flatMap_cons, utf8EncodeChar_eq_spread]
    obtain ⟨rest, hrest⟩ := exists_spread_eq_cons _ _ _
    rw [hrest]
    exact List.nil_lt_cons _ _
  | rel hlt =>
    rw [List.flatMap_cons, List.flatMap_cons]
    exact utf8EncodeChar_append_lt hlt
  | cons _ ih =>
    rw [List.flatMap_cons, List.flatMap_cons]
    exact List.append_left_lt ih

/-- Texts that come first have bytes that do. -/
theorem bytes_lt_bytes {t u : String} (h : t < u) : bytes t < bytes u := by
  rw [bytes_eq_flatMap, bytes_eq_flatMap]
  exact flatMap_utf8EncodeChar_lt (String.lt_iff_toList_lt.1 h)

/-- Texts are ordered as their bytes are. -/
theorem bytes_lt_bytes_iff {t u : String} : bytes t < bytes u ↔ t < u := by
  refine ⟨fun h => ?_, bytes_lt_bytes⟩
  by_contra hnot
  by_cases hrev : u < t
  · exact List.lt_asymm h (bytes_lt_bytes hrev)
  · rw [String.lt_antisymm hnot hrev] at h
    exact List.lt_irrefl _ h

/-- Texts are compared as their bytes are. -/
theorem compare_eq_lt_iff_bytes_lt {t u : String} : compare t u = .lt ↔ bytes t < bytes u := by
  rw [bytes_lt_bytes_iff]
  exact compareOfLessAndEq_eq_lt

end Scheduling.Text

import Mathlib.Data.List.Nodup
import Scheduling.Proofs.Json.Documents
import Scheduling.Wire.Codec

/-!
# Faithful codecs

A codec is faithful if it reads what it writes and writes only values that a text can spell. What a
faithful codec writes as a text it reads back from the text, with nothing left over
(`IsFaithful.roundTrips`). The codecs of plain values are faithful: strings whatever they hold,
truth values, and integers to the limits of their types. Lists, sets, names, and values that may be
absent are faithful over faithful codecs; for an absent value it matters that no present one is
written as `null`.
-/

namespace Scheduling.Wire.Codec

open Json (Document ofString ofInt)

variable {α : Type}

/-- The codec reads what it writes, and a text can spell what it writes. -/
structure IsFaithful (c : Codec α) : Prop where
  lawful : c.IsLawful
  writable : ∀ a, (c.encode a).IsWritable

/-- The text of a value is the text of one JSON value to its end, and is read back as the value. -/
def RoundTrips (c : Codec α) : Prop :=
  ∀ a, Document.ofText (c.encodeText a).toList = ⟨c.encode a, true⟩ ∧
    c.decodeText (c.encodeText a) = .ok a

/-- What a faithful codec writes as a text is read back from it. -/
theorem IsFaithful.roundTrips {c : Codec α} (h : c.IsFaithful) : c.RoundTrips := fun a => by
  have htext : Document.ofText (c.encodeText a).toList = ⟨c.encode a, true⟩ := by
    rw [encodeText, Json.compactText, String.toList_ofList]
    exact Json.ofText_compact (h.writable a)
  refine ⟨htext, ?_⟩
  unfold decodeText
  rw [htext]
  show (c.decode (c.encode a) >>= fun a => pure a) = .ok a
  rw [h.lawful a]
  rfl

/-! ## Plain values -/

/-- Strings are read back, whatever they hold. -/
theorem isFaithful_string : string.IsFaithful where
  lawful _ := rfl
  writable := Json.isWritable_ofString

/-- Truth values are read back. -/
theorem isFaithful_boolean : boolean.IsFaithful where
  lawful _ := rfl
  writable b := .of_token (t := .bool b) rfl (by rw [boolean, Json.tokenList]) trivial

/-- An integer that 64 bits hold, with a sign or without, is read as what it is converted to. -/
theorem decodeInteger_ofInt {wanted : Wanted} {convert : Int → Option α} {n : Int} {a : α}
    (hlo : Int64.minValue.toInt ≤ n) (hhi : n < UInt64.size) (h : convert n = some a) :
    decodeInteger wanted convert (ofInt n) = .ok a := by
  unfold decodeInteger ofInt
  -- an integer below zero comes back with a sign, any other without
  by_cases hneg : n < 0
  · have hint : (Int64.ofInt n).toInt = n := Int64.toInt_ofInt_of_le hlo (by omega)
    simp only [Numeral.number_ofInt_of_neg hneg hlo, hint, h]
  · obtain ⟨k, rfl⟩ := Int.eq_ofNat_of_zero_le (Int.not_lt.1 hneg)
    have hk : k < UInt64.size := Int.ofNat_lt.1 hhi
    have hnat : (UInt64.ofNat k).toNat = k := UInt64.toNat_ofNat_of_lt' hk
    simp only [Numeral.number_ofInt_of_nonneg hk, hnat, h]

/-- A natural number below a bound that 64 bits hold is read as what is made of it. -/
theorem decodeInteger_ofInt_natCast {wanted : Wanted} {size n : ℕ} {make : ℕ → α} (hn : n < size)
    (hsize : size ≤ UInt64.size) :
    decodeInteger wanted (fun i => if 0 ≤ i ∧ i.toNat < size then some (make i.toNat) else none)
      (ofInt n) = .ok (make n) := by
  have hmin : Int64.minValue.toInt ≤ 0 := by decide
  have htoNat : (n : Int).toNat = n := Int.toNat_natCast n
  refine decodeInteger_ofInt (by omega) (by omega) ?_
  rw [if_pos ⟨by omega, by rw [htoNat]; exact hn⟩, htoNat]

/-- Unsigned 32-bit integers are read back. -/
theorem isFaithful_unsigned32 : unsigned32.IsFaithful where
  lawful n := by
    simp only [unsigned32]
    rw [decodeInteger_ofInt_natCast n.toNat_lt (by decide), UInt32.ofNat_toNat]
  writable n := Json.isWritable_ofInt n.toNat

/-- Unsigned 64-bit integers are read back. -/
theorem isFaithful_unsigned64 : unsigned64.IsFaithful where
  lawful n := by
    simp only [unsigned64]
    rw [decodeInteger_ofInt_natCast n.toNat_lt (Nat.le_refl _), UInt64.ofNat_toNat]
  writable n := Json.isWritable_ofInt n.toNat

/-- Signed 64-bit integers are read back. -/
theorem isFaithful_signed64 : signed64.IsFaithful where
  lawful n := by
    have hlo := n.minValue_le_toInt
    have hhi := n.toInt_le
    have hmax : Int64.maxValue.toInt < UInt64.size := by decide
    simp only [signed64]
    refine decodeInteger_ofInt (n := n.toInt) hlo (by omega) ?_
    rw [if_pos ⟨hlo, hhi⟩, Int64.ofInt_toInt]
  writable n := Json.isWritable_ofInt n.toInt

/-! ## Compound values -/

variable {c : Codec α}

/-- A list is read item by item. -/
theorem mapM_decode_eq_ok {xs : List α} {items : List Json}
    (h : List.Forall₂ (fun x item => c.decode item = .ok x) xs items) :
    items.mapM c.decode = .ok xs := by
  induction h with
  | nil => rfl
  | cons hx _ ih =>
    rw [List.mapM_cons, hx, ih]
    rfl

/-- Lists of what is read back are read back. -/
theorem IsFaithful.list (h : c.IsFaithful) : c.list.IsFaithful where
  lawful xs := by
    refine mapM_decode_eq_ok ?_
    rw [List.forall₂_map_right_iff]
    exact List.forall₂_same.2 fun x _ => h.lawful x
  writable xs := Json.isWritable_list fun item hi => by
    obtain ⟨x, -, rfl⟩ := List.mem_map.1 hi
    exact h.writable x

/-- A set of strings is read from the list of some strings as the set of these. -/
theorem stringSet_decode_list (xs : List String) :
    stringSet.decode (.list (xs.map ofString)) = .ok (SortedSet.ofList xs) := by
  have hlist : string.list.decode (.list (xs.map ofString)) = .ok xs :=
    isFaithful_string.list.lawful xs
  show SortedSet.ofList <$> string.list.decode (.list (xs.map ofString)) = _
  rw [hlist]
  rfl

/-- Sets of strings are read back. -/
theorem isFaithful_stringSet : stringSet.IsFaithful where
  lawful s := by
    show stringSet.decode (.list (s.toList.map ofString)) = .ok s
    rw [stringSet_decode_list, SortedSet.ofList_toList]
  writable s := isFaithful_string.list.writable s.toList

/-- Values that may be absent are read back if no present one is written as `null`. -/
theorem IsFaithful.optional (h : c.IsFaithful) (hnull : ∀ a, c.encode a ≠ .null) :
    c.optional.IsFaithful where
  lawful
    | none => rfl
    | some a => by
      -- only `null` is read as an absent value, and the codec writes none
      have hdecode : ∀ v, v ≠ .null → c.optional.decode v = some <$> c.decode v := by
        rintro (_ | _ | _ | _ | _ | _ | _) hv
        · exact absurd rfl hv
        all_goals rfl
      show c.optional.decode (c.encode a) = .ok (some a)
      rw [hdecode _ (hnull a), h.lawful a]
      rfl
  writable
    | none => .of_token (t := .null) rfl (by rw [Codec.optional, Json.tokenList]) trivial
    | some a => h.writable a

/-- Values whose names name them are read back. -/
theorem isFaithful_named {write : α → String} {parse : String → Except IdError α}
    (h : ∀ a, parse (write a) = .ok a) : (named write parse).IsFaithful where
  lawful a := by
    simp only [named, string, ofString, bind, Except.bind, h a]
    rfl
  writable a := Json.isWritable_ofString (write a)

/-- If no two values have one name, the value that is found by a name is the one that has it. -/
theorem find?_name {β : Type} {all : List α} {name : α → β} [DecidableEq β]
    (hnodup : (all.map name).Nodup) {a : α} (ha : a ∈ all) :
    all.find? (fun b => name b = name a) = some a := by
  cases hfind : all.find? fun b => name b = name a with
  | none => simpa using List.find?_eq_none.1 hfind a ha
  | some b =>
    have hb : name b = name a := by simpa using List.find?_some hfind
    rw [List.inj_on_of_nodup_map hnodup (List.mem_of_find?_eq_some hfind) ha hb]

/-- Values that have names are read back, if no two have one name. -/
theorem isFaithful_variant {all : List α} {name : α → String} (hall : ∀ a, a ∈ all)
    (hnodup : (all.map name).Nodup) : (variant all name).IsFaithful where
  lawful a := by
    show lookupVariant all name (name a) = .ok a
    rw [lookupVariant, find?_name hnodup (hall a)]
  writable a := Json.isWritable_ofString (name a)

end Scheduling.Wire.Codec

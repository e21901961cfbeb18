import Scheduling.Proofs.Wire.Parts

/-!
# Forms of documents

Of all the documents that are read as a value one is written. A form says which documents of a value
are allowed besides it, and a codec reads a form if it reads the value from each of them and writes
one of them (`Codec.Reads`).

Forms are made as codecs are. A plain value has the document that is written (`Codec.written`), an
absent one `null` (`Form.optional`), a list the documents of its items (`Form.list`), and a set any
list with its members and no others, in any order and repeated at will (`Form.stringSet`). A record
has records of fields, in any order and mixed with unknown ones, as well as lists, and either may
leave out what the fallback stands for (`Layout.Presents`). The codec of a faithful layout reads
this form if the codecs of its fields read theirs (`Layout.IsFaithful.reads`), and so on inwards,
whatever is changed at which depth.

A text in a form is any text of a document in it, with blanks between its tokens, and the value is
read from each of them (`Codec.Reads.decodeText_eq`).
-/

namespace Scheduling.Wire

/-- Which JSON values are documents of a value. -/
abbrev Form (α : Type) : Type := α → Json → Prop

variable {α : Type}

/-- A text of a document of a value. -/
def Form.HasText (form : Form α) (a : α) (text : String) : Prop :=
  ∃ v, form a v ∧ v.HasText text.toList

/-- The documents of values that may be absent. -/
def Form.optional (form : Form α) : Form (Option α)
  | none, v => v = .null
  | some a, v => form a v

/-- The documents of lists. -/
def Form.list (form : Form α) : Form (List α) := fun xs v =>
  ∃ items, v = .list items ∧ List.Forall₂ form xs items

/-- The documents of sets of strings: lists of their members, in any order, repeated or not. -/
def Form.stringSet : Form (SortedSet String) := fun s v =>
  ∃ xs : List String, v = .list (xs.map Json.ofString) ∧ ∀ x, x ∈ xs ↔ x ∈ s

namespace Codec

/-- The one document that is written. -/
def written (c : Codec α) : Form α := fun a v => v = c.encode a

/-- The codec reads a value from each of its documents, and writes one of them. -/
structure Reads (c : Codec α) (form : Form α) : Prop where
  decode : ∀ {a v}, form a v → c.decode v = .ok a
  encode : ∀ a, form a (c.encode a)

variable {c : Codec α} {form : Form α}

/-- What is written is read. -/
theorem IsLawful.reads (h : c.IsLawful) : c.Reads c.written where
  decode := fun hv => hv ▸ h _
  encode _ := rfl

/-- Values that may be absent are read if no present one has `null` as a document. -/
theorem Reads.optional (h : c.Reads form) (hnull : ∀ a, ¬ form a .null) :
    c.optional.Reads form.optional where
  decode {a v} hv := by
    cases a with
    | none =>
      obtain rfl : v = .null := hv
      rfl
    | some a =>
      -- only `null` is read as an absent value, and it is no document of a present one
      have hdecode : c.optional.decode v = some <$> c.decode v := by
        cases v with
        | null => exact absurd hv (hnull a)
        | _ => rfl
      rw [hdecode, h.decode hv]
      rfl
  encode
    | none => rfl
    | some a => h.encode a

/-- Lists are read if their items are. -/
theorem Reads.list (h : c.Reads form) : c.list.Reads form.list where
  decode := by
    rintro xs v ⟨items, rfl, hitems⟩
    exact mapM_decode_eq_ok (hitems.imp fun _ _ => h.decode)
  encode xs := by
    refine ⟨xs.map c.encode, rfl, ?_⟩
    rw [List.forall₂_map_right_iff]
    exact List.forall₂_same.2 fun x _ => h.encode x

/-- A set is read from any list of its members. -/
theorem reads_stringSet : stringSet.Reads .stringSet where
  decode := by
    rintro s v ⟨xs, rfl, hxs⟩
    have hset : SortedSet.ofList xs = s :=
      SortedSet.ext_mem fun x => SortedSet.mem_ofList.trans (hxs x)
    rw [stringSet_decode_list, hset]
  encode s := ⟨s.toList, rfl, fun _ => Iff.rfl⟩

/-- The text that is written is a text in the form. -/
theorem Reads.hasText_encodeText (h : c.Reads form) (hfaithful : c.IsFaithful) (a : α) :
    form.HasText a (c.encodeText a) := by
  refine ⟨c.encode a, h.encode a, ?_⟩
  rw [encodeText, Json.compactText, String.toList_ofList]
  exact (hfaithful.writable a).hasText_compact

/-- A value is read from each of its texts. -/
theorem Reads.decodeText_eq (h : c.Reads form) {a : α} {text : String}
    (htext : form.HasText a text) : c.decodeText text = .ok a := by
  obtain ⟨v, hv, htext⟩ := htext
  exact decodeText_eq_of_hasText htext (h.decode hv)

end Codec

namespace Layout

variable {l : Layout α} {form : (f : l.Field) → Form (l.Slot f)}

/-- The documents of a record, where the values of its fields have documents of their own. -/
inductive Presents (l : Layout α) (form : (f : l.Field) → Form (l.Slot f)) (a : α) :
    Json → Prop where
  /-- Fields in any order, mixed with unknown ones. A field that is not there has its fallback. -/
  | record {part : l.Field → Option Json} {fields : List (Option String × Json)} :
    l.Mixes part fields → (∀ f w, part f = some w → form f (l.get a f) w) →
    (∀ f, part f = none → l.fallback f = some (l.get a f)) → Presents l form a (.record fields)
  /-- The fields in the order in which they are declared. Those at the end that are not there have
  their fallbacks. -/
  | list {present absent : List l.Field} {items : List Json} : l.fields = present ++ absent →
    List.Forall₂ (fun f w => form f (l.get a f) w) present items →
    (∀ f ∈ absent, l.fallback f = some (l.get a f)) → Presents l form a (.list items)

/-- No record has `null` as a document. -/
theorem not_presents_null (a : α) : ¬ l.Presents form a .null := nofun

/-- A record is read from each of its documents, if the values of its fields are read from theirs.
-/
theorem IsFaithful.reads (h : l.IsFaithful) (hform : ∀ f, (l.codec f).Reads (form f)) :
    l.toCodec.Reads (l.Presents form) where
  decode {a v} hv := by
    cases hv with
    | record hmixes hsome hnone =>
      have hdecode := hmixes.decode (fun f w hw => (hform f).decode (hsome f w hw)) hnone
      rwa [h.build_get] at hdecode
    | list hfields hitems habsent =>
      have hdecode := decode_list hfields (hitems.imp fun f _ => (hform f).decode) habsent
      rwa [h.build_get] at hdecode
  encode a := by
    -- what is written is the record of fields that has nothing unknown and leaves out what it may
    obtain ⟨fields, hencode, hmixes⟩ := l.exists_mixes_encode a
    show l.Presents form a (l.encode a)
    rw [hencode]
    refine .record hmixes (fun f w hw => ?_) fun f hnone => ?_
    · obtain ⟨-, rfl⟩ := writtenPart_eq_some_iff.1 hw
      exact (hform f).encode (l.get a f)
    · exact h.fallback_of_isOmitted f _ (writtenPart_eq_none_iff.1 hnone)

end Layout

end Scheduling.Wire

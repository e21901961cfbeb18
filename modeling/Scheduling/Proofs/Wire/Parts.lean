import Scheduling.Proofs.Ident.JobText
import Scheduling.Proofs.Wire.Layouts

/-!
# The parts of a document

A document of a record holds a value for a field under the field's name, or, if it is a list, at the
field's place (`Layout.part`). Whatever the document is, a record that is read from it has in each
field what is read from the field's part, and the fallback where there is no part
(`Layout.get_of_decode`): reading takes nothing from anywhere else, and lets nothing through that
the field's codec refuses. Drafts carry this through the reading of the fields one by one
(`readFields_eq_ok`, `readItems_eq_ok`).
-/

namespace Scheduling.Wire

namespace Codec

variable {α : Type} {c : Codec α} {a : α}

/-- A text is read as a value if it spells one JSON value to its end, and that is read as it. -/
theorem decodeText_eq_ok_iff {text : String} :
    c.decodeText text = .ok a ↔
      (Json.Document.ofText text.toList).isComplete = true ∧
        c.decode (Json.Document.ofText text.toList).value = .ok a := by
  unfold decodeText
  dsimp only
  rw [bind_eq_ok_iff]
  constructor
  · rintro ⟨a', hdecode, h⟩
    split at h
    · next hcomplete =>
      obtain rfl := Except.ok.inj h
      exact ⟨hcomplete, hdecode⟩
    · cases h
  · rintro ⟨hcomplete, hdecode⟩
    exact ⟨a, hdecode, if_pos hcomplete⟩

/-- A text of a document is read as what the document is read as. -/
theorem decodeText_eq_of_hasText {v : Json} {text : String} (htext : v.HasText text.toList)
    (hdecode : c.decode v = .ok a) : c.decodeText text = .ok a := by
  rw [decodeText_eq_ok_iff, htext.ofText_eq]
  exact ⟨rfl, hdecode⟩

/-- Only a text is read as a string, and as its content. -/
theorem string_decode_eq_ok_iff {v : Json} {s : String} :
    string.decode v = .ok s ↔ v = .text (some s) := by
  constructor
  · intro h
    unfold string at h
    dsimp only at h
    split at h
    · obtain rfl := Except.ok.inj h
      rfl
    · cases h
  · rintro rfl
    rfl

/-- Only a text that the parser accepts is read as a named value. -/
theorem named_decode_eq_ok_iff {write : α → String} {parse : String → Except IdError α} {v : Json} :
    (named write parse).decode v = .ok a ↔ ∃ s, v = .text (some s) ∧ parse s = .ok a := by
  unfold named
  dsimp only
  rw [bind_eq_ok_iff]
  refine exists_congr fun s => and_congr string_decode_eq_ok_iff ?_
  cases parse s with
  | error cause => exact iff_of_false nofun nofun
  | ok a' =>
    constructor
    · intro h
      exact congrArg Except.ok (Except.ok.inj h)
    · intro h
      exact congrArg Except.ok (Except.ok.inj h)

/-- A present value is read as by the codec of values that are there. -/
theorem decode_of_optional_decode {v : Json} (h : c.optional.decode v = .ok (some a)) :
    c.decode v = .ok a := by
  unfold optional at h
  dsimp only at h
  split at h
  · cases h
  · cases hdecode : c.decode v with
    | error e =>
      rw [hdecode] at h
      cases h
    | ok a' =>
      rw [hdecode] at h
      obtain rfl := Option.some.inj (Except.ok.inj h)
      rfl

end Codec

namespace Layout

variable {α : Type} {l : Layout α}

/-- What a document holds for a field: in a record the first value under the name of the field, in a
list the item at its place. -/
def part (l : Layout α) (f : l.Field) : Json → Option Json
  | .record fields => (fields.find? fun field => field.1 = some (l.name f)).map Prod.snd
  | .list items => items[l.fields.idxOf f]?
  | _ => none

/-- A name that leads to a field is its name. -/
theorem name_of_field? {name : String} {f : l.Field} (h : l.field? name = some f) :
    l.name f = name := by simpa using List.find?_some h

/-- Reading the fields of a record puts into the draft what is read from the first value under the
name of each field; such a field had not been read before. All other fields stay as they are. -/
theorem readFields_eq_ok {fields : List (Option String × Json)} {d d' : l.Draft}
    (h : l.readFields d fields = .ok d') (f : l.Field) :
    match l.part f (.record fields) with
    | some w => d f = none ∧ ∃ v, (l.codec f).decode w = .ok v ∧ d' f = some v
    | none => d' f = d f := by
  induction fields generalizing d with
  | nil =>
    rw [readFields] at h
    obtain rfl := Except.ok.inj h
    rfl
  | cons field rest ih =>
    obtain ⟨_ | name, w⟩ := field
    · cases h
    rw [readFields] at h
    -- the field stands either under this name or among the rest
    by_cases hname : l.name f = name
    · subst hname
      have hpart : l.part f (.record ((some (l.name f), w) :: rest)) = some w := by simp [part]
      rw [field?_name] at h
      dsimp only at h
      split at h
      · cases h
      · next hnew =>
        obtain ⟨v, hv, h⟩ := bind_eq_ok_iff.1 h
        have hput : d.put f v f = some v := by simp [Draft.put]
        have hrest := ih h
        rw [hpart]
        refine ⟨by simpa using hnew, v, hv, ?_⟩
        -- among the rest there is no second one, since that would be refused
        split at hrest
        · rw [hput] at hrest
          cases hrest.1
        · rw [hrest, hput]
    · have hpart : l.part f (.record ((some name, w) :: rest)) = l.part f (.record rest) := by
        simp [part, Ne.symm hname]
      rw [hpart]
      split at h
      · next g hg =>
        have hne : g ≠ f := fun heq => hname (heq ▸ name_of_field? hg)
        split at h
        · cases h
        · obtain ⟨v, -, h⟩ := bind_eq_ok_iff.1 h
          have hput : d.put g v f = d f := dif_neg hne
          rw [← hput]
          exact ih h
      · split at h
        · exact ih h
        · cases h

/-- Reading items leaves the fields alone that are not to come. -/
theorem readItems_of_not_mem {fs : List l.Field} {items : List Json} {position : ℕ}
    {d d' : l.Draft} (h : l.readItems position d fs items = .ok d') {f : l.Field} (hf : f ∉ fs) :
    d' f = d f := by
  induction fs generalizing items position d with
  | nil =>
    cases items with
    | nil => rw [← Except.ok.inj h]
    | cons => cases h
  | cons g fs ih =>
    obtain ⟨hne, hf⟩ := not_or.1 (mt List.mem_cons.2 hf)
    cases items with
    | nil =>
      rw [readItems] at h
      split at h
      · exact ih h hf
      · cases h
    | cons item items =>
      rw [readItems] at h
      obtain ⟨v, -, h⟩ := bind_eq_ok_iff.1 h
      have hput : d.put g v f = d f := dif_neg (Ne.symm hne)
      rw [ih h hf, hput]

/-- Reading items puts into the draft what is read from the item at the place of each field to come,
if there are so many. -/
theorem readItems_eq_ok {fs : List l.Field} (hfs : fs.Nodup) {items : List Json} {position : ℕ}
    {d d' : l.Draft} (h : l.readItems position d fs items = .ok d') {f : l.Field} (hf : f ∈ fs) :
    match items[fs.idxOf f]? with
    | some w => ∃ v, (l.codec f).decode w = .ok v ∧ d' f = some v
    | none => d' f = d f := by
  induction fs generalizing items position d with
  | nil => cases hf
  | cons g fs ih =>
    obtain ⟨hg, hfs⟩ := List.nodup_cons.1 hfs
    cases items with
    | nil =>
      rw [readItems] at h
      split at h
      · rw [List.getElem?_nil]
        by_cases hfg : f ∈ fs
        · simpa using ih hfs h hfg
        · exact readItems_of_not_mem h hfg
      · cases h
    | cons item items =>
      rw [readItems] at h
      obtain ⟨v, hv, h⟩ := bind_eq_ok_iff.1 h
      by_cases hfg : f = g
      · subst hfg
        have hput : d.put f v f = some v := by simp [Draft.put]
        rw [List.idxOf_cons_self, List.getElem?_cons_zero]
        exact ⟨v, hv, (readItems_of_not_mem h hg).trans hput⟩
      · have hput : d.put g v f = d f := dif_neg (Ne.symm hfg)
        rw [List.idxOf_cons_ne fs (Ne.symm hfg), List.getElem?_cons_succ, ← hput]
        exact ih hfs h ((List.mem_cons.1 hf).resolve_left hfg)

/-- A finished draft has a value for each field, read or standing for an absent one. -/
theorem exists_of_finish_eq_ok {d : l.Draft} {a : α} (h : l.finish d = .ok a) :
    ∃ v : (f : l.Field) → l.Slot f, l.build v = a ∧ ∀ f, (d f).or (l.fallback f) = some (v f) := by
  unfold finish at h
  split at h
  · cases h
  · exact ⟨_, Except.ok.inj h, fun f => (Option.some_get _).symm⟩

/-- A record that is read from a document has in each field what is read from the part that the
document holds for it, and the fallback if there is no such part. -/
theorem get_of_decode (hget : ∀ v f, l.get (l.build v) f = v f) {v : Json} {a : α}
    (h : l.decode v = .ok a) (f : l.Field) :
    match l.part f v with
    | some w => (l.codec f).decode w = .ok (l.get a f)
    | none => l.fallback f = some (l.get a f) := by
  -- in both forms of a document the draft holds what is read from the parts
  have hfinish : ∀ d, l.finish d = .ok a →
      (match l.part f v with
        | some w => ∃ x, (l.codec f).decode w = .ok x ∧ d f = some x
        | none => d f = none) →
      match l.part f v with
      | some w => (l.codec f).decode w = .ok (l.get a f)
      | none => l.fallback f = some (l.get a f) := by
    intro d hd hparts
    obtain ⟨x, rfl, hx⟩ := exists_of_finish_eq_ok hd
    have hxf := hx f
    rw [hget]
    split at hparts
    · obtain ⟨y, hy, hdf⟩ := hparts
      rw [hdf, Option.some_or] at hxf
      rw [hy, Option.some.inj hxf]
    · rw [hparts, Option.none_or] at hxf
      exact hxf
  cases v with
  | record fields =>
    obtain ⟨d, hread, hd⟩ := bind_eq_ok_iff.1 h
    refine hfinish d hd ?_
    have hparts := readFields_eq_ok hread f
    split at hparts
    · exact hparts.2
    · exact hparts
  | list items =>
    obtain ⟨d, hread, hd⟩ := bind_eq_ok_iff.1 h
    exact hfinish d hd (readItems_eq_ok l.nodup_fields hread (l.mem_fields f))
  | _ => cases h

/-- A field that may not be left out has a part, and the record has what is read from it. -/
theorem exists_part_of_decode (hget : ∀ v f, l.get (l.build v) f = v f) {v : Json} {a : α}
    (h : l.decode v = .ok a) {f : l.Field} (hf : l.fallback f = none) :
    ∃ w, l.part f v = some w ∧ (l.codec f).decode w = .ok (l.get a f) := by
  have hpart := get_of_decode hget h f
  split at hpart
  · next w hw => exact ⟨w, hw, hpart⟩
  · rw [hf] at hpart
    cases hpart

end Layout

end Scheduling.Wire

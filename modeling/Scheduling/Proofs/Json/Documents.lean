import Scheduling.Json.Reading
import Scheduling.Proofs.Json.Tokens

/-!
# Documents read back

The tokens of a value are the tokens of its parts with marks around and between them, and the
compact text of a value spells them (`compact_eq_flatMap`). A reading that meets the tokens of a
value where a value must follow has read the value after them, whatever lists and records are open
around it (`run_tokenList`). So a text of a value, which spells its tokens with any blanks between
them, is read as the value and nothing is left of it (`HasText.ofText_eq`). Among these texts is the
compact one, if the value is writable: spelt out to its end, in proper tokens (`ofText_compact`).
-/

namespace Scheduling.Json

/-! ## The tokens of a value -/

mutual

/-- The tokens of a value. A broken part has none. -/
def tokenList : Json → List Token
  | .null => [.null]
  | .bool b => [.bool b]
  | .number n => [.number n]
  | .text s => [.text s]
  | .list items => .openList :: itemTokens items ++ [.closeList]
  | .record fields => .openRecord :: fieldTokens fields ++ [.closeRecord]
  | .broken => []

/-- The tokens of items with commas between them. -/
def itemTokens : List Json → List Token
  | [] => []
  | [item] => tokenList item
  | item :: rest => tokenList item ++ .comma :: itemTokens rest

/-- The tokens of fields with commas between them. -/
def fieldTokens : List (Option String × Json) → List Token
  | [] => []
  | [(key, value)] => .text key :: .colon :: tokenList value
  | (key, value) :: rest => .text key :: .colon :: tokenList value ++ .comma :: fieldTokens rest

end

mutual

/-- The compact text of a value spells its tokens. -/
theorem compact_eq_flatMap : ∀ v : Json, v.compact = v.tokenList.flatMap Token.spelling
  | .null | .bool true | .bool false | .number _ | .text _ => by
    simp [compact, tokenList, Token.spelling]
  | .list items => by
    simp [compact, tokenList, Token.spelling, compactItems_eq_flatMap items]
  | .record fields => by
    simp [compact, tokenList, Token.spelling, compactFields_eq_flatMap fields]
  | .broken => by simp [compact, tokenList]

/-- The compact text of items spells their tokens. -/
theorem compactItems_eq_flatMap :
    ∀ items : List Json, compactItems items = (itemTokens items).flatMap Token.spelling
  | [] => by simp [compactItems, itemTokens]
  | [item] => by simp [compactItems, itemTokens, compact_eq_flatMap item]
  | item :: next :: rest => by
    simp [compactItems, itemTokens, Token.spelling, compact_eq_flatMap item,
      compactItems_eq_flatMap (next :: rest)]

/-- The compact text of fields spells their tokens. -/
theorem compactFields_eq_flatMap : ∀ fields : List (Option String × Json),
    compactFields fields = (fieldTokens fields).flatMap Token.spelling
  | [] => by simp [compactFields, fieldTokens]
  | [(key, value)] => by
    simp [compactFields, fieldTokens, Token.spelling, compact_eq_flatMap value]
  | (key, value) :: next :: rest => by
    simp [compactFields, fieldTokens, Token.spelling, compact_eq_flatMap value,
      compactFields_eq_flatMap (next :: rest)]

end

/-! ## Writable values -/

/-- Numerals that stand apart before a mark and after it stand apart. -/
theorem AreApart.append_mark {ts us : List Token} {t : Token} (hts : AreApart ts)
    (ht : t.isNumber = false) (hus : AreApart us) : AreApart (ts ++ t :: us) := by
  refine hts.append (hus.cons fun u _ h => ?_) fun a _ b hb h => ?_
  · exact absurd h.1 (by rw [ht]; decide)
  · cases hb
    exact absurd h.2 (by rw [ht]; decide)

/-- Numerals that stand apart between two marks stand apart. -/
theorem AreApart.between {ts : List Token} {t u : Token} (hts : AreApart ts)
    (ht : t.isNumber = false) (hu : u.isNumber = false) : AreApart (t :: ts ++ [u]) := by
  have hnil : AreApart [] := List.isChain_nil
  exact hnil.append_mark ht (hts.append_mark hu hnil)

/-- A key and the tokens of its value stand apart. -/
theorem AreApart.field {ts : List Token} (key : Option String) (hts : AreApart ts) :
    AreApart (.text key :: .colon :: ts) := by
  have hkey : AreApart [.text key] := List.isChain_singleton _
  exact hkey.append_mark rfl hts

mutual

/-- No two numerals of a value stand side by side. -/
theorem areApart_tokenList : ∀ v : Json, AreApart v.tokenList
  | .null | .bool _ | .number _ | .text _ | .broken => by simp [tokenList]
  | .list items => by
    rw [tokenList]
    exact (areApart_itemTokens items).between rfl rfl
  | .record fields => by
    rw [tokenList]
    exact (areApart_fieldTokens fields).between rfl rfl

/-- No two numerals of a list's items stand side by side. -/
theorem areApart_itemTokens : ∀ items : List Json, AreApart (itemTokens items)
  | [] => by simp [itemTokens]
  | [item] => by rw [itemTokens]; exact areApart_tokenList item
  | item :: next :: rest => by
    rw [itemTokens]
    · exact (areApart_tokenList item).append_mark rfl (areApart_itemTokens (next :: rest))
    · simp

/-- No two numerals of a record's fields stand side by side. -/
theorem areApart_fieldTokens :
    ∀ fields : List (Option String × Json), AreApart (fieldTokens fields)
  | [] => by simp [fieldTokens]
  | [(key, value)] => by rw [fieldTokens]; exact (areApart_tokenList value).field key
  | (key, value) :: next :: rest => by
    rw [fieldTokens]
    · have hfield := (areApart_tokenList value).field key
      exact hfield.append_mark rfl (areApart_fieldTokens (next :: rest))
    · simp

end

/-- A value that a text can spell. -/
structure IsWritable (v : Json) : Prop where
  /-- It is spelt out to its end. -/
  whole : v.isWhole = true
  /-- Each of its tokens can be read back. -/
  proper : ∀ t ∈ v.tokenList, t.IsProper

/-- A list of values that are spelt out is spelt out. -/
theorem areWhole_of_forall {items : List Json} (h : ∀ item ∈ items, item.isWhole = true) :
    areWhole items = true := by
  induction items with
  | nil => rw [areWhole]
  | cons item rest ih =>
    rw [areWhole, h item (by simp), ih fun next hn => h next (by simp [hn])]
    rfl

/-- Fields whose values are spelt out are spelt out. -/
theorem fieldsAreWhole_of_forall {fields : List (Option String × Json)}
    (h : ∀ field ∈ fields, field.2.isWhole = true) : fieldsAreWhole fields = true := by
  induction fields with
  | nil => rw [fieldsAreWhole]
  | cons field rest ih =>
    rw [fieldsAreWhole, h field (by simp), ih fun next hn => h next (by simp [hn])]
    rfl

/-- A token of items is a comma or a token of one of them. -/
theorem mem_itemTokens {items : List Json} {t : Token} (h : t ∈ itemTokens items) :
    t = .comma ∨ ∃ item ∈ items, t ∈ item.tokenList := by
  induction items with
  | nil => simp [itemTokens] at h
  | cons item rest ih =>
    cases rest with
    | nil => exact Or.inr ⟨item, by simp, by simpa [itemTokens] using h⟩
    | cons next rest =>
      simp only [itemTokens, List.mem_append, List.mem_cons] at h
      rcases h with h | h | h
      · exact Or.inr ⟨item, by simp, h⟩
      · exact Or.inl h
      · obtain h | ⟨other, hmem, h⟩ := ih h
        · exact Or.inl h
        · exact Or.inr ⟨other, by simp [hmem], h⟩

/-- A token of fields is a mark, a key, or a token of a value. -/
theorem mem_fieldTokens {fields : List (Option String × Json)} {t : Token}
    (h : t ∈ fieldTokens fields) :
    t = .comma ∨ t = .colon ∨ ∃ field ∈ fields, t = .text field.1 ∨ t ∈ field.2.tokenList := by
  induction fields with
  | nil => simp [fieldTokens] at h
  | cons field rest ih =>
    have hfield : t = .text field.1 ∨ t = .colon ∨ t ∈ field.2.tokenList →
        t = .comma ∨ t = .colon ∨
          ∃ other ∈ field :: rest, t = .text other.1 ∨ t ∈ other.2.tokenList := by
      rintro (h | h | h)
      · exact Or.inr (Or.inr ⟨field, by simp, Or.inl h⟩)
      · exact Or.inr (Or.inl h)
      · exact Or.inr (Or.inr ⟨field, by simp, Or.inr h⟩)
    cases rest with
    | nil =>
      simp only [fieldTokens, List.mem_cons] at h
      exact hfield h
    | cons next rest =>
      simp only [fieldTokens, List.mem_append, List.mem_cons] at h
      rcases h with h | h | h
      · exact hfield h
      · exact Or.inl h
      · obtain h | h | ⟨other, hmem, h⟩ := ih h
        · exact Or.inl h
        · exact Or.inr (Or.inl h)
        · exact Or.inr (Or.inr ⟨other, by simp [hmem], h⟩)

/-- A value that is one token can be written if the token is proper. -/
theorem IsWritable.of_token {v : Json} {t : Token} (hwhole : v.isWhole = true)
    (htokens : v.tokenList = [t]) (ht : t.IsProper) : v.IsWritable :=
  ⟨hwhole, fun u hu => by rw [htokens, List.mem_singleton] at hu; rwa [hu]⟩

/-- The text of a string can be written. -/
theorem isWritable_ofString (s : String) : (ofString s).IsWritable :=
  .of_token (t := .text (some s)) rfl (by rw [ofString, tokenList]) rfl

/-- The numeral of an integer can be written. -/
theorem isWritable_ofInt (n : Int) : (ofInt n).IsWritable :=
  .of_token (t := .number (.ofInt n)) rfl (by rw [ofInt, tokenList]) (Numeral.isWellFormed_ofInt n)

/-- A list can be written if its items can. -/
theorem isWritable_list {items : List Json} (h : ∀ item ∈ items, item.IsWritable) :
    (Json.list items).IsWritable where
  whole := by
    rw [isWhole]
    exact areWhole_of_forall fun item hi => (h item hi).whole
  proper t ht := by
    rw [tokenList] at ht
    simp only [List.mem_cons, List.mem_append, List.not_mem_nil, or_false] at ht
    obtain (rfl | ht) | rfl := ht
    · trivial
    · obtain rfl | ⟨item, hi, ht⟩ := mem_itemTokens ht
      · trivial
      · exact (h item hi).proper t ht
    · trivial

/-- A record can be written if its keys have content and its values can be written. -/
theorem isWritable_record {fields : List (Option String × Json)}
    (h : ∀ field ∈ fields, field.1.isSome = true ∧ field.2.IsWritable) :
    (Json.record fields).IsWritable where
  whole := by
    rw [isWhole]
    exact fieldsAreWhole_of_forall fun field hf => (h field hf).2.whole
  proper t ht := by
    rw [tokenList] at ht
    simp only [List.mem_cons, List.mem_append, List.not_mem_nil, or_false] at ht
    obtain (rfl | ht) | rfl := ht
    · trivial
    · obtain rfl | rfl | ⟨field, hf, rfl | ht⟩ := mem_fieldTokens ht
      · trivial
      · trivial
      · exact (h field hf).1
      · exact (h field hf).2.proper t ht
    · trivial

/-- A text of a value that is spelt out to its end. -/
structure HasText (v : Json) (cs : List Char) : Prop where
  whole : v.isWhole = true
  spaced : Spaced v.tokenList cs

/-- The tokens of a writable value, with any blanks before each of them, are one of its texts. -/
theorem IsWritable.hasText_flatMap {v : Json} (h : v.IsWritable) (blanks : Token → List Char)
    (hblanks : ∀ t ∈ v.tokenList, AreBlanks (blanks t)) :
    v.HasText (v.tokenList.flatMap fun t => blanks t ++ t.spelling) where
  whole := h.whole
  spaced := spaced_flatMap_spelling blanks hblanks h.proper

/-- The compact text of a writable value is one of its texts, without blanks. -/
theorem IsWritable.hasText_compact {v : Json} (h : v.IsWritable) : v.HasText v.compact := by
  rw [compact_eq_flatMap]
  exact h.hasText_flatMap (fun _ => []) fun _ _ => by simp [AreBlanks]

/-! ## Reading the tokens of a value -/

namespace Reading

/-- A value that is spelt out does not start like the end of a list, so after the opening of a list
it is read as any item. -/
theorem run_firstItem {v : Json} (hv : v.isWhole = true) (frames : List Frame) (ts : List Token) :
    run ⟨.firstItem, frames⟩ (v.tokenList ++ ts)
      = run ⟨.value, .list [] :: frames⟩ (v.tokenList ++ ts) := by
  cases v with
  | broken => exact absurd hv (by simp [isWhole])
  | null | bool | number | text | list | record => rw [tokenList]; rfl

/-- A key and its colon are read, and the value of the field must follow. -/
theorem run_key (fields : List (Option String × Json)) (key : Option String)
    (frames : List Frame) (ts : List Token) :
    run ⟨.key fields, frames⟩ (.text key :: .colon :: ts)
      = run ⟨.value, .field fields key :: frames⟩ ts := rfl

-- The three inductions follow the value. What has been read of the innermost list or record, what is
-- open around it and what follows are arbitrary, since each of them changes from item to item.
mutual

/-- The tokens of a value that is spelt out are read as the value. -/
theorem run_tokenList : ∀ (v : Json), v.isWhole = true → ∀ (frames : List Frame)
    (ts : List Token), run ⟨.value, frames⟩ (v.tokenList ++ ts) = run ⟨.done v, frames⟩ ts
  | .null, _, _, _ | .bool _, _, _, _ | .number _, _, _, _ | .text _, _, _, _ => by
    rw [tokenList]; rfl
  | .list [], _, _, _ => by rw [tokenList, itemTokens]; rfl
  | .list (item :: rest), h, frames, ts => by
    have hwhole : areWhole (item :: rest) = true := by simpa [isWhole] using h
    have hitem : item.isWhole = true := by
      rw [areWhole, Bool.and_eq_true] at hwhole
      exact hwhole.1
    obtain ⟨us, hus⟩ : ∃ us, itemTokens (item :: rest) = item.tokenList ++ us := by
      cases rest <;> simp [itemTokens]
    -- after the opening the reading is at a place of its own, and the first item takes it on
    calc run ⟨.value, frames⟩ (tokenList (.list (item :: rest)) ++ ts)
      _ = run ⟨.firstItem, frames⟩ (itemTokens (item :: rest) ++ .closeList :: ts) := by
        rw [tokenList, List.cons_append, List.cons_append, List.append_assoc]
        rfl
      _ = run ⟨.value, .list [] :: frames⟩ (itemTokens (item :: rest) ++ .closeList :: ts) := by
        rw [hus, List.append_assoc, run_firstItem hitem]
      _ = run ⟨.done (.list (item :: rest)), frames⟩ ts :=
        run_itemTokens (item :: rest) (by simp) hwhole [] frames ts
  | .record [], _, _, _ => by rw [tokenList, fieldTokens]; rfl
  | .record ((key, value) :: rest), h, frames, ts => by
    have hwhole : fieldsAreWhole ((key, value) :: rest) = true := by simpa [isWhole] using h
    obtain ⟨us, hus⟩ : ∃ us, fieldTokens ((key, value) :: rest) = .text key :: us := by
      cases rest <;> simp [fieldTokens]
    calc run ⟨.value, frames⟩ (tokenList (.record ((key, value) :: rest)) ++ ts)
      _ = run ⟨.key [], frames⟩ (fieldTokens ((key, value) :: rest) ++ .closeRecord :: ts) := by
        rw [tokenList, List.cons_append, List.cons_append, List.append_assoc, hus]
        rfl
      _ = run ⟨.done (.record ((key, value) :: rest)), frames⟩ ts :=
        run_fieldTokens ((key, value) :: rest) (by simp) hwhole [] frames ts
  | .broken, h, _, _ => absurd h (by simp [isWhole])

/-- The tokens of the items to come of a list, and its end, are read as the list. -/
theorem run_itemTokens : ∀ (items : List Json), items ≠ [] → areWhole items = true →
    ∀ (read : List Json) (frames : List Frame) (ts : List Token),
      run ⟨.value, .list read :: frames⟩ (itemTokens items ++ .closeList :: ts)
        = run ⟨.done (.list (read.reverse ++ items)), frames⟩ ts
  | [], h, _, _, _, _ => absurd rfl h
  | [item], _, h, read, frames, ts => by
    rw [areWhole, Bool.and_eq_true] at h
    rw [itemTokens, run_tokenList item h.1, ← List.reverse_cons]
    rfl
  | item :: next :: rest, _, h, read, frames, ts => by
    rw [areWhole, Bool.and_eq_true] at h
    calc run ⟨.value, .list read :: frames⟩
          (itemTokens (item :: next :: rest) ++ .closeList :: ts)
      _ = run ⟨.done item, .list read :: frames⟩
          (.comma :: (itemTokens (next :: rest) ++ .closeList :: ts)) := by
        rw [itemTokens, List.append_assoc, run_tokenList item h.1, List.cons_append]
        simp
      _ = run ⟨.value, .list (item :: read) :: frames⟩
          (itemTokens (next :: rest) ++ .closeList :: ts) := rfl
      _ = run ⟨.done (.list (read.reverse ++ item :: next :: rest)), frames⟩ ts := by
        rw [run_itemTokens (next :: rest) (by simp) h.2, List.reverse_cons, List.append_assoc]
        rfl

/-- The tokens of the fields to come of a record, and its end, are read as the record. -/
theorem run_fieldTokens : ∀ (fields : List (Option String × Json)), fields ≠ [] →
    fieldsAreWhole fields = true →
    ∀ (read : List (Option String × Json)) (frames : List Frame) (ts : List Token),
      run ⟨.key read, frames⟩ (fieldTokens fields ++ .closeRecord :: ts)
        = run ⟨.done (.record (read.reverse ++ fields)), frames⟩ ts
  | [], h, _, _, _, _ => absurd rfl h
  | [(key, value)], _, h, read, frames, ts => by
    rw [fieldsAreWhole, Bool.and_eq_true] at h
    rw [fieldTokens, List.cons_append, List.cons_append, run_key, run_tokenList value h.1,
      ← List.reverse_cons]
    rfl
  | (key, value) :: next :: rest, _, h, read, frames, ts => by
    rw [fieldsAreWhole, Bool.and_eq_true] at h
    calc run ⟨.key read, frames⟩
          (fieldTokens ((key, value) :: next :: rest) ++ .closeRecord :: ts)
      _ = run ⟨.done value, .field read key :: frames⟩
          (.comma :: (fieldTokens (next :: rest) ++ .closeRecord :: ts)) := by
        rw [fieldTokens, List.append_assoc, List.cons_append, List.cons_append, run_key,
          run_tokenList value h.1, List.cons_append]
        simp
      _ = run ⟨.key ((key, value) :: read), frames⟩
          (fieldTokens (next :: rest) ++ .closeRecord :: ts) := rfl
      _ = run ⟨.done (.record (read.reverse ++ (key, value) :: next :: rest)), frames⟩ ts := by
        rw [run_fieldTokens (next :: rest) (by simp) h.2, List.reverse_cons, List.append_assoc]
        rfl

end

end Reading

/-- A text of a value is read as the value, and nothing of it is left. -/
theorem HasText.ofText_eq {v : Json} {cs : List Char} (h : v.HasText cs) :
    Document.ofText cs = ⟨v, true⟩ := by
  have htokens : tokens cs = v.tokenList := tokens_of_spaced h.spaced (areApart_tokenList v)
  have hrun := Reading.run_tokenList v h.whole [] []
  rw [List.append_nil] at hrun
  rw [Document.ofText, htokens, Reading.start, hrun]
  rfl

/-- The compact text of a writable value is read as the value, and nothing of it is left. -/
theorem ofText_compact {v : Json} (h : v.IsWritable) :
    Document.ofText v.compact = ⟨v, true⟩ :=
  h.hasText_compact.ofText_eq

end Scheduling.Json

/-
# Reading written lists, records and choices

A written list is read as the list of its values (`Json.reads_list`), a written object as the record
that its members make, if each of them is read into the draft that those before it have left
(`Json.Shape.reads_object`), and a written array as the record of its fields
(`Json.Shape.reads_tuple`).  A choice is read by its name (`Json.reads_choice`), or by the value that
goes with its name (`Json.reads_keyedChoice`).
-/
import CodeGraph.Proofs.Json.Written

namespace CodeGraph.Json

/-! ## Members behind commas -/

/-- Written values, each behind a comma. -/
def behindCommas (texts : List (List Char)) : List Char := texts.flatMap (',' :: ·)

theorem behindCommas_cons (text : List Char) (texts : List (List Char)) (rest : List Char) :
    behindCommas (text :: texts) ++ rest = ',' :: (text ++ (behindCommas texts ++ rest)) := by
  rw [behindCommas, List.flatMap_cons, ← behindCommas, List.append_assoc, List.cons_append]

/-- All values but the first stand behind commas. -/
theorem separate_cons (text : List Char) (texts : List (List Char)) :
    separate (text :: texts) = text ++ behindCommas texts := by
  induction texts generalizing text with
  | nil => simp [separate, behindCommas, List.intercalate]
  | cons next texts ih =>
    have htail := ih next
    simp only [separate, behindCommas, List.intercalate, List.intersperse_cons_cons, List.flatten_cons,
      List.flatMap_cons, List.cons_append, List.nil_append] at htail ⊢
    rw [htail]

/-- Behind a value there is a comma or what follows the list. -/
theorem endsValue_behindCommas (texts : List (List Char)) {rest : List Char} (h : EndsValue rest) :
    EndsValue (behindCommas texts ++ rest) := by
  cases texts with
  | nil => exact h
  | cons text texts => exact endsValue_cons (Or.inl rfl) _

theorem length_le_length_behindCommas (texts : List (List Char)) :
    texts.length ≤ (behindCommas texts).length := by
  induction texts with
  | nil => exact Nat.zero_le _
  | cons text texts ih =>
    rw [behindCommas, List.flatMap_cons, List.length_append, ← behindCommas]
    simp only [List.length_cons]
    omega

/-- There are no more values than characters. -/
theorem length_le_length_separate (texts : List (List Char)) :
    texts.length ≤ (separate texts).length + 1 := by
  cases texts with
  | nil => exact Nat.zero_le _
  | cons text texts =>
    have htail := length_le_length_behindCommas texts
    rw [separate_cons, List.length_append, List.length_cons]
    omega

/-- A value is no longer than all values. -/
theorem length_le_length_of_mem {text : List Char} {texts : List (List Char)} (h : text ∈ texts) :
    text.length ≤ (separate texts).length := by
  induction texts with
  | nil => cases h
  | cons first texts ih =>
    rw [separate_cons, List.length_append]
    rcases List.mem_cons.mp h with rfl | hmem
    · exact Nat.le_add_right _ _
    · have hlater : text.length ≤ (behindCommas texts).length := by
        rw [behindCommas, List.length_flatMap]
        have hle := List.single_le_sum (fun _ _ => Nat.zero_le _) _
          (List.mem_map_of_mem (f := fun text : List Char => (',' :: text).length) hmem)
        rw [List.length_cons] at hle
        omega
      omega

theorem length_lt_length_encodeList (texts : List (List Char)) :
    texts.length < (encodeList texts).length := by
  have hle := length_le_length_separate texts
  rw [encodeList, List.length_cons, List.length_append, List.length_singleton]
  omega

/-- A value is shorter than the list that it is in. -/
theorem length_lt_length_encodeList_of_mem {text : List Char} {texts : List (List Char)}
    (h : text ∈ texts) : text.length < (encodeList texts).length := by
  have hle := length_le_length_of_mem h
  rw [encodeList, List.length_cons, List.length_append, List.length_singleton]
  omega

/-! ## Lists -/

theorem closeList_end (rest : List Char) : closeList (']' :: rest) = .ok rest := rfl

/-- The first element stands right behind the bracket. -/
theorem nextElement?_first {text : List Char} (h : BeginsValue text) (rest : List Char) :
    nextElement? true (text ++ rest) = .ok (some (text ++ rest)) := by
  obtain ⟨c, tail, rfl, hblank, hend, -⟩ := h
  rw [List.cons_append, nextElement?, skipBlank_cons hblank]
  split
  · next heq => cases heq
  · next heq =>
    cases heq
    exact absurd rfl hend
  · next heq =>
    cases heq
    rfl

theorem nextElement?_later {text : List Char} (h : BeginsValue text) (rest : List Char) :
    nextElement? false (',' :: (text ++ rest)) = .ok (some (text ++ rest)) := by
  obtain ⟨c, tail, rfl, hblank, hend, -⟩ := h
  rw [List.cons_append, nextElement?, skipBlank_cons rfl]
  split
  · next heq => cases heq
  · next heq => cases heq
  · next heq =>
    cases heq
    rw [if_neg Bool.false_ne_true, if_pos rfl, skipBlank_cons hblank]
    split
    · next heq =>
      cases heq
      exact absurd rfl hend
    · rfl

section Lists

variable {α : Type} {read : Reader α} {texts : List (List Char)} {values : List α}

theorem readList_begin (fuel : Nat) (read : Reader α) (rest : List Char) :
    readList fuel read ('[' :: rest) =
      (readElements read [] true fuel rest).mapError (·.settle leaveList) := rfl

/-- One more element is read. -/
theorem readElements_step {first : Bool} {cs text rest : List Char} {a : α}
    (hnext : nextElement? first cs = .ok (some (text ++ rest))) (hread : Reads read text a)
    (hrest : EndsValue rest) (done : List α) (n : Nat) :
    readElements read done first (n + 1) cs = readElements read (a :: done) false n rest := by
  rw [readElements, hnext]
  dsimp only
  rw [hread.read_append rest hrest]

/-- At the closing bracket the elements are complete. -/
theorem readElements_end (first : Bool) (done : List α) (n : Nat) (rest : List Char) :
    readElements read done first (n + 1) (']' :: rest) = .ok (done.reverse, rest) := rfl

/-- The values behind commas are read one after the other, up to the end of the list. -/
theorem readElements_behindCommas (h : List.Forall₂ (Reads read) texts values) (done : List α)
    {n : Nat} (hn : texts.length < n) (rest : List Char) :
    readElements read done false n (behindCommas texts ++ ']' :: rest) =
      .ok (done.reverse ++ values, rest) := by
  -- by induction on the values; each takes one unit of fuel, and the end of the list another
  induction h generalizing done n with
  | nil =>
    obtain ⟨n, rfl⟩ : ∃ m, n = m + 1 := ⟨n - 1, by omega⟩
    rw [behindCommas, List.flatMap_nil, List.nil_append, readElements_end, List.append_nil]
  | @cons text a texts values hfirst hrest ih =>
    obtain ⟨n, rfl⟩ : ∃ m, n = m + 1 := ⟨n - 1, by omega⟩
    rw [List.length_cons] at hn
    have hends := endsValue_behindCommas texts (endsValue_cons (Or.inr (Or.inl rfl)) rest)
    rw [behindCommas_cons, readElements_step (nextElement?_later hfirst.begins _) hfirst hends,
      ih (a :: done) (by omega), List.reverse_cons, List.append_assoc, List.singleton_append]

/-- **A written list is read as the list of its values.** -/
theorem reads_list (h : List.Forall₂ (Reads read) texts values) {fuel : Nat}
    (hfuel : texts.length < fuel) : Reads (readList fuel read) (encodeList texts) values where
  begins := ⟨'[', _, rfl, rfl, by decide, by decide⟩
  read_append rest _ := by
    obtain ⟨n, rfl⟩ : ∃ n, fuel = n + 1 := ⟨fuel - 1, by omega⟩
    rw [encodeList, List.cons_append, List.append_assoc, List.singleton_append, readList_begin]
    cases h with
    | nil => rfl
    | @cons text a texts values hfirst hrest =>
      rw [List.length_cons] at hfuel
      have hends := endsValue_behindCommas texts (endsValue_cons (Or.inr (Or.inl rfl)) rest)
      rw [separate_cons, List.append_assoc,
        readElements_step (nextElement?_first hfirst.begins _) hfirst hends,
        readElements_behindCommas hrest [a] (by omega)]
      rfl

/-- A list whose members are written each for itself. -/
theorem reads_list_map {encode : α → List Char}
    (h : ∀ a ∈ values, Reads read (encode a) a) {fuel : Nat}
    (hfuel : (encodeList (values.map encode)).length ≤ fuel) :
    Reads (readList fuel read) (encodeList (values.map encode)) values := by
  have hall : List.Forall₂ (Reads read) (values.map encode) values := by
    rw [List.forall₂_map_left_iff, List.forall₂_same]
    exact h
  exact reads_list hall ((length_lt_length_encodeList _).trans_le hfuel)

end Lists

/-! ## Values with something made of them -/

/-- What is made of a value when it has been read. -/
theorem Reads.map {α β : Type} {read : Reader α} {text : List Char} {a : α} (h : Reads read text a)
    (f : α → β) : Reads (fun cs => (read cs).map fun (a, rest) => (f a, rest)) text (f a) where
  begins := h.begins
  read_append rest hrest := by
    dsimp only
    rw [h.read_append rest hrest]
    rfl

/-- A value where there may be none. -/
theorem Reads.optional {α : Type} {read : Reader α} {text : List Char} {a : α}
    (h : Reads read text a) : Reads (readOptional read) text (some a) where
  begins := h.begins
  read_append rest hrest := by
    have hread := h.read_append rest hrest
    obtain ⟨c, tail, rfl, hblank, -, hnull⟩ := h.begins
    rw [List.cons_append] at hread ⊢
    rw [readOptional, skipBlank_cons hblank]
    split
    · next heq =>
      cases heq
      exact absurd rfl hnull
    · rw [hread]
      rfl

/-- There is fuel for every character of the text. -/
theorem length_le_enoughFuel (text : List Char) : text.length ≤ enoughFuel text := by
  rw [enoughFuel]
  omega

/-- A text that holds one value. -/
theorem readWhole_of_reads {α : Type} {read : Nat → Reader α} {text : List Char} {a : α}
    (h : Reads (read (enoughFuel text)) text a) : readWhole read text = .ok a := by
  have hread := h.read_append [] endsValue_nil
  rw [List.append_nil] at hread
  rw [readWhole, hread]
  rfl

/-! ## Records -/

/-- A written member of an object. -/
def encodeMember (member : String × List Char) : List Char :=
  encodeText member.1 ++ ':' :: member.2

/-- An object is written as its members between braces. -/
theorem encodeObject_eq (members : List (String × List Char)) :
    encodeObject members = '{' :: (separate (members.map encodeMember) ++ ['}']) := rfl

/-- An object is as long as the list of its members. -/
theorem length_encodeObject (members : List (String × List Char)) :
    (encodeObject members).length = (encodeList (members.map encodeMember)).length := by
  rw [encodeObject_eq, encodeList, List.length_cons, List.length_cons, List.length_append,
    List.length_append, List.length_singleton, List.length_singleton]

theorem length_lt_length_encodeObject (members : List (String × List Char)) :
    members.length < (encodeObject members).length := by
  have hlt := length_lt_length_encodeList (members.map encodeMember)
  rw [List.length_map] at hlt
  rw [length_encodeObject]
  exact hlt

/-- A value is shorter than the object that it is in. -/
theorem length_lt_length_encodeObject_of_mem {key : String} {text : List Char}
    {members : List (String × List Char)} (h : (key, text) ∈ members) :
    text.length < (encodeObject members).length := by
  have hlt := length_lt_length_encodeList_of_mem (List.mem_map_of_mem (f := encodeMember) h)
  have hmember : (encodeMember (key, text)).length = (encodeText key).length + (text.length + 1) := by
    rw [encodeMember, List.length_append, List.length_cons]
  rw [length_encodeObject]
  omega

namespace Shape

variable {δ α : Type} {shape : Shape δ α}

/-- Reading the members one after the other takes the first draft to the last. -/
inductive Drafts (shape : Shape δ α) : δ → List (String × List Char) → δ → Prop
  | nil (draft : δ) : Drafts shape draft [] draft
  | cons {draft next last : δ} {key : String} {text : List Char}
      {members : List (String × List Char)} {field : Field δ}
      (hfield : shape.fields.find? (·.name == key) = some field)
      (hnew : field.isGiven draft = false) (hread : Reads (field.read draft) text next)
      (hrest : Drafts shape next members last) : Drafts shape draft ((key, text) :: members) last

/-- Reading the texts as the fields in order takes the first draft to the last. -/
inductive Fills : δ → List (Field δ) → List (List Char) → δ → Prop
  | nil (draft : δ) : Fills draft [] [] draft
  | cons {draft next last : δ} {field : Field δ} {fields : List (Field δ)} {text : List Char}
      {texts : List (List Char)} (hread : Reads (field.read draft) text next)
      (hrest : Fills next fields texts last) :
      Fills draft (field :: fields) (text :: texts) last

end Shape

/-! ### Objects -/

/-- An object begins with a brace, and a fault inside it is reported behind it. -/
theorem Shape.read_begin {δ α : Type} (shape : Shape δ α) (fuel : Nat) (rest : List Char) :
    shape.read fuel ('{' :: rest) =
      (shape.readMembers fuel shape.blank true fuel rest).mapError (·.settle leaveObject) := rfl

/-- At the closing brace there is no further key. -/
theorem nextKey?_end (first : Bool) (rest : List Char) : nextKey? first ('}' :: rest) = .ok none :=
  rfl

theorem leaveObject_end (rest : List Char) : leaveObject ('}' :: rest) = rest := rfl

/-- The first key stands right behind the brace. -/
theorem nextKey?_first (rest : List Char) : nextKey? true ('"' :: rest) = .ok (some rest) := rfl

theorem nextKey?_later (rest : List Char) : nextKey? false (',' :: '"' :: rest) = .ok (some rest) :=
  rfl

theorem scanColon_colon (rest : List Char) : scanColon (':' :: rest) = .ok rest := rfl

/-- A member is its key in quotes, a colon and its value. -/
theorem encodeMember_append (key : String) (text rest : List Char) :
    encodeMember (key, text) ++ rest =
      '"' :: (key.toList.flatMap encodeChar ++ '"' :: ':' :: (text ++ rest)) := by
  rw [encodeMember, List.append_assoc, List.cons_append, encodeText_append]

namespace Shape

variable {δ α : Type} {shape : Shape δ α} {draft next last : δ} {a : α}

/-- A member that the draft lacks is read into it. -/
theorem readMember_eq {field : Field δ} {key : String} {text rest : List Char}
    (hfield : shape.fields.find? (·.name == key) = some field) (hnew : field.isGiven draft = false)
    (hread : Reads (field.read draft) text next) (hrest : EndsValue rest) (fuel : Nat) :
    shape.readMember fuel draft key (':' :: (text ++ rest)) = .ok (next, rest) := by
  rw [readMember, hfield]
  dsimp only
  rw [hnew, if_neg Bool.false_ne_true, scanColon_colon]
  exact hread.read_append rest hrest

/-- One more member is read. -/
theorem readMembers_step {first : Bool} {cs : List Char} {field : Field δ} {key : String}
    {text rest : List Char}
    (hnext : nextKey? first cs =
      .ok (some (key.toList.flatMap encodeChar ++ '"' :: ':' :: (text ++ rest))))
    (hfield : shape.fields.find? (·.name == key) = some field) (hnew : field.isGiven draft = false)
    (hread : Reads (field.read draft) text next) (hrest : EndsValue rest) (fuel n : Nat) :
    shape.readMembers fuel draft first (n + 1) cs = shape.readMembers fuel next false n rest := by
  rw [readMembers, hnext]
  dsimp only
  rw [scanString_text]
  dsimp only
  rw [readMember_eq hfield hnew hread hrest]

/-- At the closing brace the object is finished. -/
theorem readMembers_end (hfinish : shape.finish last = .ok a) (fuel : Nat) (first : Bool) (n : Nat)
    (rest : List Char) : shape.readMembers fuel last first (n + 1) ('}' :: rest) = .ok (a, rest) := by
  rw [readMembers, nextKey?_end]
  dsimp only
  rw [hfinish, leaveObject_end]

/-- The members behind commas are read one after the other, up to the end of the object. -/
theorem readMembers_behindCommas {members : List (String × List Char)}
    (h : Drafts shape draft members last) (hfinish : shape.finish last = .ok a) (fuel : Nat)
    {n : Nat} (hn : members.length < n) (rest : List Char) :
    shape.readMembers fuel draft false n (behindCommas (members.map encodeMember) ++ '}' :: rest) =
      .ok (a, rest) := by
  -- by induction on the members: what each leaves is the draft that the next one starts from
  induction h generalizing n with
  | nil draft =>
    obtain ⟨n, rfl⟩ : ∃ m, n = m + 1 := ⟨n - 1, by omega⟩
    exact readMembers_end hfinish fuel false n rest
  | @cons draft next last key text members field hfield hnew hread hrest ih =>
    obtain ⟨n, rfl⟩ : ∃ m, n = m + 1 := ⟨n - 1, by omega⟩
    rw [List.length_cons] at hn
    have hends := endsValue_behindCommas (members.map encodeMember)
      (endsValue_cons (Or.inr (Or.inr rfl)) rest)
    rw [List.map_cons, behindCommas_cons, encodeMember_append,
      readMembers_step (nextKey?_later _) hfield hnew hread hends]
    exact ih hfinish (by omega)

/-- The members are read one after the other, up to the end of the object. -/
theorem readMembers_first {members : List (String × List Char)}
    (h : Drafts shape draft members last) (hfinish : shape.finish last = .ok a) (fuel : Nat)
    {n : Nat} (hn : members.length < n) (rest : List Char) :
    shape.readMembers fuel draft true n (separate (members.map encodeMember) ++ '}' :: rest) =
      .ok (a, rest) := by
  obtain ⟨n, rfl⟩ : ∃ m, n = m + 1 := ⟨n - 1, by omega⟩
  cases h with
  | nil => exact readMembers_end hfinish fuel true n rest
  | @cons _ next _ key text members field hfield hnew hread hrest =>
    rw [List.length_cons] at hn
    have hends := endsValue_behindCommas (members.map encodeMember)
      (endsValue_cons (Or.inr (Or.inr rfl)) rest)
    rw [List.map_cons, separate_cons, List.append_assoc, encodeMember_append,
      readMembers_step (nextKey?_first _) hfield hnew hread hends]
    exact readMembers_behindCommas hrest hfinish fuel (by omega) rest

/-- **A written object is read as the record that its members make.** -/
theorem reads_object {members : List (String × List Char)}
    (h : Drafts shape shape.blank members last) (hfinish : shape.finish last = .ok a) {fuel : Nat}
    (hfuel : members.length < fuel) : Reads (shape.read fuel) (encodeObject members) a where
  begins := ⟨'{', _, rfl, rfl, by decide, by decide⟩
  read_append rest _ := by
    rw [encodeObject_eq, List.cons_append, List.append_assoc, List.singleton_append, read_begin,
      readMembers_first h hfinish fuel hfuel]
    rfl

/-! ### Arrays -/

theorem readTuple_begin (shape : Shape δ α) (rest : List Char) :
    shape.readTuple ('[' :: rest) = (shape.readArray rest).mapError (·.settle leaveList) := rfl

/-- One more field is read. -/
theorem readFields_step {first : Bool} {cs text rest : List Char} {field : Field δ}
    (hnext : nextElement? first cs = .ok (some (text ++ rest)))
    (hread : Reads (field.read draft) text next) (hrest : EndsValue rest)
    (fields : List (Field δ)) :
    readFields draft first (field :: fields) cs = readFields next false fields rest := by
  rw [readFields, hnext]
  dsimp only
  rw [hread.read_append rest hrest]

/-- The fields behind commas are read one after the other. -/
theorem readFields_behindCommas {fields : List (Field δ)} {texts : List (List Char)}
    (h : Fills draft fields texts last) (rest : List Char) :
    readFields draft false fields (behindCommas texts ++ ']' :: rest) =
      .ok (last, ']' :: rest) := by
  induction h with
  | nil draft => rfl
  | @cons draft next last field fields text texts hread hrest ih =>
    have hends := endsValue_behindCommas texts (endsValue_cons (Or.inr (Or.inl rfl)) rest)
    rw [behindCommas_cons, readFields_step (nextElement?_later hread.begins _) hread hends]
    exact ih

/-- The first field has no comma in front of it. -/
theorem readFields_first {fields : List (Field δ)} {texts : List (List Char)}
    (h : Fills draft fields texts last) (rest : List Char) :
    readFields draft true fields (separate texts ++ ']' :: rest) = .ok (last, ']' :: rest) := by
  cases h with
  | nil => rfl
  | @cons _ next _ field fields text texts hread hrest =>
    have hends := endsValue_behindCommas texts (endsValue_cons (Or.inr (Or.inl rfl)) rest)
    rw [separate_cons, List.append_assoc,
      readFields_step (nextElement?_first hread.begins _) hread hends]
    exact readFields_behindCommas hrest rest

/-- **A written array is read as the record of its fields.** -/
theorem reads_tuple {texts : List (List Char)} (h : Fills shape.blank shape.fields texts last)
    (hfinish : shape.finish last = .ok a) : Reads shape.readTuple (encodeList texts) a where
  begins := ⟨'[', _, rfl, rfl, by decide, by decide⟩
  read_append rest _ := by
    rw [encodeList, List.cons_append, List.append_assoc, List.singleton_append, readTuple_begin,
      readArray, readFields_first h]
    dsimp only
    rw [hfinish]
    dsimp only
    rw [closeList_end]
    rfl

end Shape

/-! ## Choices -/

section Choices

variable {α : Type} {alternatives : List (Alternative α)} {alternative : Alternative α} {name : String}
  {a : α}

/-- An alternative without data is read off its name. -/
theorem readChoice_name (alternatives : List (Alternative α)) (rest : List Char) :
    readChoice alternatives ('"' :: rest) = (do
      let (name, rest) ← scanString [] rest
      let alternative ← pick alternatives name rest
      match alternative.bare? with
      | some a => return (a, rest)
      | none => refuseAround (.wrongType .bareName "newtype variant") rest) := rfl

/-- An alternative with data is read off an object with one member. -/
theorem readChoice_keyed (alternatives : List (Alternative α)) (rest : List Char) :
    readChoice alternatives ('{' :: '"' :: rest) = (do
      let (name, rest) ← scanString [] rest
      let alternative ← pick alternatives name rest
      let rest ← scanColon rest
      let (a, rest) ← alternative.read rest
      match skipBlank rest with
      | [] => refuseBefore .endOfObject []
      | '}' :: rest => return (a, rest)
      | rest => refuseBefore .expectedValue rest) := rfl

theorem pick_eq (h : alternatives.find? (·.name == name) = some alternative) (rest : List Char) :
    pick alternatives name rest = .ok alternative := by
  rw [pick, h]

/-- **A choice that is a name is read by its name.** -/
theorem reads_choice (h : alternatives.find? (·.name == name) = some alternative)
    (hbare : alternative.bare? = some a) : Reads (readChoice alternatives) (encodeText name) a where
  begins := beginsValue_text name
  read_append rest _ := by
    rw [encodeText_append, readChoice_name, scanString_text]
    simp only [bind, Except.bind, pick_eq h, hbare]
    rfl

/-- **A choice with a value is read by its name and its value.** -/
theorem reads_keyedChoice (h : alternatives.find? (·.name == name) = some alternative)
    {text : List Char} (hread : Reads alternative.read text a) :
    Reads (readChoice alternatives) (encodeObject [(name, text)]) a where
  begins := ⟨'{', _, rfl, rfl, by decide, by decide⟩
  read_append rest _ := by
    have hends := endsValue_cons (Or.inr (Or.inr rfl)) rest
    rw [encodeObject_eq, List.map_singleton, separate_cons, List.cons_append, List.append_assoc,
      List.append_assoc, encodeMember_append, readChoice_keyed, scanString_text]
    simp only [bind, Except.bind, pick_eq h, scanColon_colon]
    have hvalue := hread.read_append _ hends
    rw [show behindCommas [] ++ (['}'] ++ rest) = '}' :: rest from rfl, hvalue]
    rfl

end Choices

end CodeGraph.Json

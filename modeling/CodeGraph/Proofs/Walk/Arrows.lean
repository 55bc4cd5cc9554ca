/-
# Reading a drawing

`Dot.arrows` reads the arrows of a drawing off its text, line by line, and knows nothing of the walk.
It finds the edges of the walk and nothing else (`Dot.arrows_render`): no label is taken for an arrow,
whatever it says.
-/
import CodeGraph.Proofs.Text.Lines
import CodeGraph.Proofs.Walk.Pairs
import CodeGraph.Walk.Dot

namespace CodeGraph

open Text (splitOn_append_cons not_mem_toDigits)

/-! ## The reader -/

namespace Dot

/-- An arrow between two things, with the kind of edge that it shows. -/
structure Arrow where
  source : Entity × Nat
  target : Entity × Nat
  kind : EdgeKind
  deriving DecidableEq, Repr

/-- Reads a number. -/
def readNumber? (digits : List Char) : Option Nat :=
  if digits ≠ [] ∧ digits.all Char.isDigit then some (Nat.ofDigitChars 10 digits 0) else none

/-- Reads the name of a thing. -/
def readName? : List Char → Option (Entity × Nat)
  | 'N' :: 'T' :: digits => (readNumber? digits).map fun id => (.node, id)
  | 'T' :: digits => (readNumber? digits).map fun id => (.token, id)
  | 'S' :: digits => (readNumber? digits).map fun id => (.symbol, id)
  | 'V' :: digits => (readNumber? digits).map fun id => (.word, id)
  | _ => none

/-- How the arrows of a relation end, word by word. -/
def attributes (relation : Relation) : List (List Char) :=
  ('[' :: edgeStyle relation ++ "];".toList).splitOn ' '

/-- Reads the kind of an edge off the end of its arrow. -/
def readKind? (words : List (List Char)) : Option EdgeKind :=
  ((Relation.inner ++ [Relation.returnsTo]).find? fun relation => attributes relation = words).map
    Relation.kind

/-- Reads a line as an arrow. -/
def readArrow? : List Char → Option Arrow
  | '\t' :: text =>
    match text.splitOn ' ' with
    | source :: ['-', '>'] :: target :: words => do
      let source ← readName? source
      let target ← readName? target
      let kind ← readKind? words
      return { source, target, kind }
    | _ => none
  | _ => none

/-- The arrows of a text. -/
def arrows (text : List Char) : List Arrow := (text.splitOn '\n').filterMap readArrow?

/-- The arrow that is drawn for an edge. -/
def arrowOf (relation : Relation) (source target : Nat) : Arrow :=
  match relation with
  | .returnsTo => ⟨(relation.target, target), (relation.source, source), relation.kind⟩
  | _ => ⟨(relation.source, source), (relation.target, target), relation.kind⟩

end Dot

/-- The arrow that is drawn for an event. -/
def Event.arrow? : Event → Option Dot.Arrow
  | .edge relation source target => some (Dot.arrowOf relation source.id target.id)
  | _ => none

namespace Dot

/-! ## Words and lines -/

/-- A part begins with what the text begins with. -/
theorem exists_splitOn_cons {c x : Char} (h : x ≠ c) (xs : List Char) :
    ∃ first rest, (x :: xs).splitOn c = (x :: first) :: rest := by
  rw [List.splitOn, List.splitOnP_cons_eq_if_modifyHead, if_neg (by rw [beq_iff_eq]; exact h)]
  rcases hsplit : List.splitOnP (· == c) xs with _ | ⟨first, rest⟩
  · exact absurd hsplit (List.splitOnP_ne_nil _ xs)
  · exact ⟨first, rest, rfl⟩

/-- One line after the other. -/
theorem arrows_line_append {text : List Char} (h : '\n' ∉ text) (rest : List Char) :
    arrows (text ++ '\n' :: rest) = (readArrow? text).toList ++ arrows rest := by
  rw [arrows, splitOn_append_cons h, List.filterMap_cons]
  cases readArrow? text <;> rfl

/-! ## Names and kinds -/

theorem readNumber?_toDigits (n : Nat) : readNumber? (Nat.toDigits 10 n) = some n := by
  have hdigits : (Nat.toDigits 10 n).all Char.isDigit = true :=
    List.all_eq_true.mpr fun c hc => Nat.isDigit_of_mem_toDigits (by decide) (by decide) hc
  rw [readNumber?, if_pos ⟨Nat.toDigits_ne_nil, hdigits⟩, Nat.ofDigitChars_ten_toDigits]

theorem readName?_name (sort : Entity) (id : Nat) : readName? (name sort id) = some (sort, id) := by
  cases sort <;> exact congrArg (Option.map _) (readNumber?_toDigits id)

/-- A character of a name is one of the letters or a digit. -/
theorem not_mem_name {c : Char} (hdigit : c.isDigit = false) {sort : Entity} (hmark : c ∉ mark sort)
    (id : Nat) : c ∉ name sort id := by
  rw [name, List.mem_append]
  rintro (hmem | hmem)
  · exact hmark hmem
  · exact not_mem_toDigits hdigit id hmem

/-- The kind of an arrow is read back from its style. -/
theorem readKind?_attributes (relation : Relation) :
    readKind? (attributes relation) = some relation.kind := by
  cases relation <;> decide +kernel

/-! ## Lines -/

/-- A line is no arrow if its first word is not the name of a thing. -/
theorem readArrow?_eq_none_of_readName? {first : List Char} (hspace : ' ' ∉ first)
    (hname : readName? first = none) (rest : List Char) :
    readArrow? ('\t' :: (first ++ ' ' :: rest)) = none := by
  rw [readArrow?, splitOn_append_cons hspace]
  split
  · next heq =>
    obtain rfl := (List.cons.inj heq).1
    rw [hname]
    rfl
  · rfl

/-- A line is no arrow if its second word is not an arrow. -/
theorem readArrow?_eq_none_of_ne {first : List Char} (hspace : ' ' ∉ first) {c : Char}
    (hword : c ≠ ' ') (harrow : c ≠ '-') (rest : List Char) :
    readArrow? ('\t' :: (first ++ ' ' :: c :: rest)) = none := by
  obtain ⟨second, words, hsplit⟩ := exists_splitOn_cons hword rest
  rw [readArrow?, splitOn_append_cons hspace, hsplit]
  split
  · next heq =>
    cases heq
    exact absurd rfl harrow
  · rfl

/-- The line of an arrow is read as the arrow. -/
theorem readArrow?_arrow (source target : Entity × Nat) (relation : Relation) :
    readArrow? ('\t' :: (name source.1 source.2 ++ ' ' :: '-' :: '>' :: ' ' ::
      (name target.1 target.2 ++ ' ' :: ('[' :: edgeStyle relation ++ "];".toList)))) =
        some ⟨source, target, relation.kind⟩ := by
  have hspace (thing : Entity × Nat) : ' ' ∉ name thing.1 thing.2 :=
    not_mem_name rfl (by cases thing.1 <;> decide) thing.2
  have hsplit : (name source.1 source.2 ++ ' ' :: '-' :: '>' :: ' ' ::
      (name target.1 target.2 ++ ' ' :: ('[' :: edgeStyle relation ++ "];".toList))).splitOn ' ' =
        name source.1 source.2 :: ['-', '>'] :: name target.1 target.2 :: attributes relation := by
    have harrow (rest : List Char) :
        (['-', '>'] ++ ' ' :: rest).splitOn ' ' = ['-', '>'] :: rest.splitOn ' ' :=
      splitOn_append_cons (by decide) rest
    have htarget := splitOn_append_cons (hspace target) ('[' :: edgeStyle relation ++ "];".toList)
    rw [splitOn_append_cons (hspace source)]
    exact congrArg _ ((harrow _).trans (congrArg _ htarget))
  rw [readArrow?, hsplit]
  show (do
    let source ← readName? (name source.1 source.2)
    let target ← readName? (name target.1 target.2)
    let kind ← readKind? (attributes relation)
    return Arrow.mk source target kind) = _
  rw [readName?_name, readName?_name, readKind?_attributes]
  rfl

/-! ## Texts without line breaks -/

theorem newline_not_mem_escape (text : String) : '\n' ∉ escape text := by
  rw [escape, List.mem_flatMap]
  rintro ⟨c, -, hmem⟩
  unfold escapeChar at hmem
  split at hmem
  · revert hmem
    decide
  · revert hmem
    decide
  · revert hmem
    decide
  · next hne => exact hne (List.mem_singleton.mp hmem).symm

/-! ## The arrows of the events -/

/-- One line of a drawing after the other. -/
theorem arrows_line {text : List Char} (h : '\n' ∉ text) (rest : List Char) :
    arrows (line text ++ rest) = (readArrow? ('\t' :: text)).toList ++ arrows rest := by
  have hbreak : '\n' ∉ '\t' :: text := by
    rw [List.mem_cons]
    rintro (heq | hmem)
    · cases heq
    · exact h hmem
  rw [line, List.cons_append, List.append_assoc, List.singleton_append, ← List.cons_append]
  exact arrows_line_append hbreak rest

theorem newline_not_mem_name (sort : Entity) (id : Nat) : '\n' ∉ name sort id :=
  not_mem_name rfl (by cases sort <;> decide) id

/-- The line of a thing begins with its name and a bracket. -/
theorem entityLine_eq (sort : Entity) (visit : Visit) :
    entityLine sort visit = line (name sort visit.id ++ ' ' :: '[' :: ("label=\"".toList ++
      (mark sort ++ ':' :: (escape visit.label ++ '"' :: (style sort ++ "];".toList))))) := by
  have hlabel : " [label=\"".toList = ' ' :: '[' :: "label=\"".toList := by simp
  rw [entityLine, hlabel]
  simp only [List.append_assoc, List.cons_append]

/-- A thing is no arrow, whatever its label says. -/
theorem arrows_entityLine (sort : Entity) (visit : Visit) (rest : List Char) :
    arrows (entityLine sort visit ++ rest) = arrows rest := by
  have hspace : ' ' ∉ name sort visit.id := not_mem_name rfl (by cases sort <;> decide) visit.id
  have hmark : '\n' ∉ mark sort := by cases sort <;> decide
  have hstyle : '\n' ∉ style sort := by cases sort <;> decide +kernel
  rw [entityLine_eq, arrows_line, readArrow?_eq_none_of_ne hspace (by decide) (by decide)]
  · rfl
  · simp only [List.mem_append, List.mem_cons, not_or]
    exact ⟨newline_not_mem_name sort visit.id, by decide, by decide, by decide +kernel, hmark,
      by decide, newline_not_mem_escape visit.label, by decide, hstyle, by decide +kernel⟩

/-- The line of an edge is its arrow. -/
theorem edgeLine_eq (relation : Relation) (source target : Nat) :
    edgeLine relation source target =
      line (name (arrowOf relation source target).source.1 (arrowOf relation source target).source.2 ++
        ' ' :: '-' :: '>' :: ' ' ::
        (name (arrowOf relation source target).target.1 (arrowOf relation source target).target.2 ++
          ' ' :: ('[' :: edgeStyle relation ++ "];".toList))) := by
  have hto : " -> ".toList = [' ', '-', '>', ' '] := by simp
  have hopen : " [".toList = [' ', '['] := by simp
  cases relation <;>
    simp only [edgeLine, arrow, arrowOf, hto, hopen, List.append_assoc, List.cons_append,
      List.nil_append]

theorem arrows_edgeLine (relation : Relation) (source target : Nat) (rest : List Char) :
    arrows (edgeLine relation source target ++ rest) =
      arrowOf relation source target :: arrows rest := by
  have hstyle : '\n' ∉ edgeStyle relation := by cases relation <;> decide +kernel
  have hkind : (arrowOf relation source target).kind = relation.kind := by cases relation <;> rfl
  rw [edgeLine_eq, arrows_line, readArrow?_arrow, ← hkind]
  · rfl
  · simp only [List.mem_append, List.mem_cons, not_or]
    exact ⟨newline_not_mem_name _ _, by decide, by decide, by decide, by decide,
      newline_not_mem_name _ _, by decide, ⟨by decide, hstyle⟩, by decide +kernel⟩

/-- What begins with no name of a thing is no arrow. -/
theorem arrows_line_of_readName? {first more : List Char} (hspace : ' ' ∉ first)
    (hfirst : '\n' ∉ first) (hname : readName? first = none) (hmore : '\n' ∉ more)
    (rest : List Char) : arrows (line (first ++ ' ' :: more) ++ rest) = arrows rest := by
  rw [arrows_line, readArrow?_eq_none_of_readName? hspace hname]
  · rfl
  · rw [List.mem_append, List.mem_cons]
    rintro (hmem | heq | hmem)
    · exact hfirst hmem
    · cases heq
    · exact hmore hmem

/-- A method begins with a comment, its own line and two lines without attributes. -/
theorem eventText_methodStart (signature : String) (root : Visit) :
    eventText (.methodStart signature root) =
      '\n' :: (line ("//".toList ++ ' ' :: ("begin method ".toList ++ escape signature)) ++
        (line ('M' :: Nat.toDigits 10 root.id ++
          ' ' :: ("[label=\"M:".toList ++ escape signature ++ "\"];".toList)) ++
        (line (['C'] ++ ' ' :: ("-> ".toList ++ 'M' :: Nat.toDigits 10 root.id ++ [';'])) ++
        line ('M' :: Nat.toDigits 10 root.id ++
          ' ' :: ("-> ".toList ++ name .node root.id ++ [';']))))) := by
  have hcomment : "// begin method ".toList = "//".toList ++ ' ' :: "begin method ".toList := by
    simp
  have hlabel : " [label=\"M:".toList = ' ' :: "[label=\"M:".toList := by simp
  have hclass : "C -> ".toList = ['C'] ++ ' ' :: "-> ".toList := by simp
  have hto : " -> ".toList = ' ' :: "-> ".toList := by simp
  unfold eventText
  dsimp only
  rw [hcomment, hlabel, hclass, hto]
  simp only [List.append_assoc, List.cons_append]

/-- The line at the beginning of a method draws no arrow. -/
theorem arrows_methodStart (signature : String) (root : Visit) (rest : List Char) :
    arrows (eventText (.methodStart signature root) ++ rest) = arrows rest := by
  have hmethod {c : Char} (hdigit : c.isDigit = false) (hmark : c ≠ 'M') :
      c ∉ 'M' :: Nat.toDigits 10 root.id := by
    rw [List.mem_cons]
    rintro (heq | hmem)
    · exact hmark heq
    · exact not_mem_toDigits hdigit root.id hmem
  have hbreak := hmethod (c := '\n') rfl (by decide)
  have hescape := newline_not_mem_escape signature
  have hblank (text : List Char) : arrows ('\n' :: text) = arrows text :=
    arrows_line_append List.not_mem_nil text
  rw [eventText_methodStart, List.cons_append, hblank]
  -- the comment, the method, the way from the class and the way to the root
  rw [List.append_assoc,
    arrows_line_of_readName? (by decide +kernel) (by decide +kernel) (by decide +kernel),
    List.append_assoc, arrows_line_of_readName? (hmethod rfl (by decide)) hbreak rfl,
    List.append_assoc, arrows_line_of_readName? (by decide) (by decide) rfl,
    arrows_line_of_readName? (hmethod rfl (by decide)) hbreak rfl]
  · simp only [List.mem_append, not_or]
    exact ⟨⟨by decide +kernel, newline_not_mem_name .node root.id⟩, by decide⟩
  · simp only [List.mem_append, not_or]
    exact ⟨⟨by decide +kernel, hbreak⟩, by decide⟩
  · simp only [List.mem_append, not_or]
    exact ⟨⟨by decide +kernel, hescape⟩, by decide +kernel⟩
  · simp only [List.mem_append, not_or]
    exact ⟨by decide +kernel, hescape⟩

/-- The line at the end of a method draws no arrow. -/
theorem arrows_methodEnd (signature : String) (root : Visit) (rest : List Char) :
    arrows (eventText (.methodEnd signature root) ++ rest) = arrows rest := by
  have hcomment : "// end method ".toList = "//".toList ++ ' ' :: "end method ".toList := by simp
  unfold eventText
  dsimp only
  rw [hcomment, List.append_assoc, List.cons_append,
    arrows_line_of_readName? (by simp) (by simp) rfl]
  simp only [List.mem_append, not_or]
  exact ⟨by simp, newline_not_mem_escape signature⟩

/-- The line at the beginning of a class draws no arrow. -/
theorem arrows_classStart (name : String) (rest : List Char) :
    arrows (eventText (.classStart name) ++ rest) = arrows rest := by
  have hbrace : "\" \x7b\n".toList = "\" \x7b".toList ++ ['\n'] := by simp
  have hclass : "C [label=\"class ".toList = ['C'] ++ ' ' :: "[label=\"class ".toList := by simp
  have hescape := newline_not_mem_escape name
  have hgraph : '\n' ∉ "digraph \"".toList ++ escape name ++ "\" \x7b".toList := by
    simp only [List.mem_append, not_or]
    exact ⟨⟨by decide +kernel, hescape⟩, by decide +kernel⟩
  have hnone : readArrow? ("digraph \"".toList ++ escape name ++ "\" \x7b".toList) = none := rfl
  have heq : eventText (.classStart name) ++ rest =
      ("digraph \"".toList ++ escape name ++ "\" \x7b".toList) ++ '\n' ::
        (line (['C'] ++ ' ' :: ("[label=\"class ".toList ++ escape name ++ "\"];".toList)) ++
          rest) := by
    unfold eventText
    dsimp only
    rw [hbrace, hclass]
    simp only [List.append_assoc, List.cons_append, List.nil_append]
  rw [heq, arrows_line_append hgraph, hnone,
    arrows_line_of_readName? (by decide) (by decide) rfl]
  · rfl
  · simp only [List.mem_append, not_or]
    exact ⟨⟨by decide +kernel, hescape⟩, by decide +kernel⟩

/-- The arrows that an event adds are those of its edge. -/
theorem arrows_eventText (event : Event) (rest : List Char) :
    arrows (eventText event ++ rest) = event.arrow?.toList ++ arrows rest := by
  cases event with
  | classStart name => exact arrows_classStart name rest
  | classEnd name =>
    have hbrace : "\x7d\n".toList = ['\x7d', '\n'] := by simp
    have hline : '\n' ∉ ['\x7d'] := by decide
    show arrows ("\x7d\n".toList ++ rest) = _
    rw [hbrace]
    exact arrows_line_append hline rest
  | methodStart signature root => exact arrows_methodStart signature root rest
  | methodEnd signature root => exact arrows_methodEnd signature root rest
  | entity sort visit => exact arrows_entityLine sort visit rest
  | edge relation source target => exact arrows_edgeLine relation source.id target.id rest

/-- **The arrows of a drawing are the edges of the walk.** -/
theorem arrows_render (events : List Event) :
    arrows (render events) = events.filterMap Event.arrow? := by
  induction events with
  | nil => rfl
  | cons event events ih =>
    rw [render, List.flatMap_cons, arrows_eventText, List.filterMap_cons]
    change event.arrow?.toList ++ arrows (render events) = _
    rw [ih]
    cases event.arrow? <;> rfl

end Dot

end CodeGraph

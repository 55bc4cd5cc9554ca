/-
# The statements of a drawing

A drawing is written line by line, and each line says one thing (`Dot.Statement`).  `Dot.readLine?`
reads it off the line alone, whatever stands in names, signatures and labels: an escaped text has no
line end, its label ends where it should (`Dot.splitQuote?_escape`), and its escapes can be undone
(`Dot.unescape_escape`).  So the lines of a drawing are read as the statements of its events, one
after the other (`Dot.statements?_render`).
-/
import CodeGraph.Proofs.Walk.Arrows

namespace CodeGraph

open Text (splitOn_flatMap not_mem_toDigits)

namespace Dot

/-! ## Escaped texts -/

/-- Undoes the escapes of a text. -/
def unescape : List Char → List Char
  | '\\' :: 'n' :: rest => '\n' :: unescape rest
  | '\\' :: c :: rest => c :: unescape rest
  | c :: rest => c :: unescape rest
  | [] => []

/-- What stands before the first quotation mark that is not escaped, and what stands behind it. -/
def splitQuote? : List Char → Option (List Char × List Char)
  | '"' :: rest => some ([], rest)
  | '\\' :: c :: rest => (splitQuote? rest).map fun parts => ('\\' :: c :: parts.1, parts.2)
  | c :: rest => (splitQuote? rest).map fun parts => (c :: parts.1, parts.2)
  | [] => none

/-- A character is escaped by a backslash, or stands for itself. -/
theorem escapeChar_cases (c : Char) :
    (∃ d, escapeChar c = ['\\', d] ∧ ∀ rest, unescape ('\\' :: d :: rest) = c :: unescape rest) ∨
      (escapeChar c = [c] ∧ c ≠ '"' ∧ c ≠ '\\') := by
  unfold escapeChar
  split
  · exact Or.inl ⟨'"', rfl, fun rest => rfl⟩
  · exact Or.inl ⟨'\\', rfl, fun rest => rfl⟩
  · exact Or.inl ⟨'n', rfl, fun rest => rfl⟩
  · next hquote hslash hbreak => exact Or.inr ⟨rfl, hquote, hslash⟩

/-- A character that is no backslash stands for itself. -/
theorem unescape_cons {c : Char} (hslash : c ≠ '\\') (rest : List Char) :
    unescape (c :: rest) = c :: unescape rest := by
  conv_lhs => unfold unescape
  split <;> simp_all

/-- A character that is neither a quote nor a backslash belongs to the label. -/
theorem splitQuote?_cons {c : Char} (hquote : c ≠ '"') (hslash : c ≠ '\\') (rest : List Char) :
    splitQuote? (c :: rest) = (splitQuote? rest).map fun parts => (c :: parts.1, parts.2) := by
  conv_lhs => unfold splitQuote?
  split <;> simp_all

/-- **Unescaping undoes escaping.** -/
theorem unescape_escape (text : String) : unescape (escape text) = text.toList := by
  rw [escape]
  induction text.toList with
  | nil => rfl
  | cons c cs ih =>
    rw [List.flatMap_cons]
    rcases escapeChar_cases c with ⟨d, hescape, hunescape⟩ | ⟨hescape, -, hslash⟩
    · rw [hescape]
      exact (hunescape _).trans (congrArg (c :: ·) ih)
    · rw [hescape, List.singleton_append, unescape_cons hslash, ih]

/-- **A label ends at its own quotation mark.** -/
theorem splitQuote?_escape (text : String) (rest : List Char) :
    splitQuote? (escape text ++ '"' :: rest) = some (escape text, rest) := by
  rw [escape]
  induction text.toList with
  | nil => rfl
  | cons c cs ih =>
    rw [List.flatMap_cons, List.append_assoc]
    rcases escapeChar_cases c with ⟨d, hescape, -⟩ | ⟨hescape, hquote, hslash⟩
    · rw [hescape]
      show (splitQuote? (cs.flatMap escapeChar ++ '"' :: rest)).map _ = _
      rw [ih]
      rfl
    · rw [hescape, List.singleton_append, splitQuote?_cons hquote hslash, ih]
      rfl

/-- A text that is read back. -/
theorem ofList_unescape_escape (text : String) : String.ofList (unescape (escape text)) = text := by
  rw [unescape_escape, String.ofList_toList]

/-! ## Statements -/

/-- What is drawn: the class, a method, or a thing in a method. -/
inductive Point
  | top
  | method (id : Nat)
  | thing (sort : Entity) (id : Nat)
  deriving DecidableEq, Repr

/-- What a line of a drawing says. -/
inductive Statement
  | blank
  /-- The drawing of a class begins. -/
  | opening (name : String)
  | closing
  /-- A comment that a method begins. -/
  | begins (signature : String)
  /-- A comment that a method ends. -/
  | ends (signature : String)
  | label (point : Point) (text : String)
  /-- An arrow without attributes. -/
  | link (source target : Point)
  | edge (relation : Relation) (source target : Nat)
  deriving DecidableEq, Repr

/-- The name of a point. -/
def Point.name : Point → List Char
  | .top => ['C']
  | .method id => 'M' :: Nat.toDigits 10 id
  | .thing sort id => Dot.name sort id

/-- What stands in a label before the text. -/
def Point.title : Point → List Char
  | .top => ['c', 'l', 'a', 's', 's', ' ']
  | .method _ => ['M', ':']
  | .thing sort _ => mark sort ++ [':']

/-- What stands behind the label of a point. -/
def Point.style : Point → List Char
  | .top | .method _ => []
  | .thing sort _ => Dot.style sort

/-- The sorts that the edge of a relation is drawn between. -/
def drawnSorts (relation : Relation) : Entity × Entity :=
  match relation with
  | .returnsTo => (relation.target, relation.source)
  | _ => (relation.source, relation.target)

/-- The numbers that the edge of a relation is drawn between, or is for if it is drawn so. -/
def drawnIds (relation : Relation) (ids : Nat × Nat) : Nat × Nat :=
  match relation with
  | .returnsTo => ids.swap
  | _ => ids

/-- Where the arrow of an edge is drawn from. -/
def drawnSource (relation : Relation) (source target : Nat) : Point :=
  .thing (drawnSorts relation).1 (drawnIds relation (source, target)).1

/-- Where the arrow of an edge is drawn to. -/
def drawnTarget (relation : Relation) (source target : Nat) : Point :=
  .thing (drawnSorts relation).2 (drawnIds relation (source, target)).2

/-- The line of a statement, without its end. -/
def Statement.text : Statement → List Char
  | .blank => []
  | .opening name => "digraph \"".toList ++ (escape name ++ '"' :: " \x7b".toList)
  | .closing => ['\x7d']
  | .begins signature => '\t' :: '/' :: '/' :: ' ' :: ("begin method ".toList ++ escape signature)
  | .ends signature => '\t' :: '/' :: '/' :: ' ' :: ("end method ".toList ++ escape signature)
  | .label point text =>
    '\t' :: (point.name ++ ' ' :: '[' :: ("label=\"".toList ++ point.title ++
      (escape text ++ '"' :: (point.style ++ "];".toList))))
  | .link source target =>
    '\t' :: (source.name ++ ' ' :: '-' :: '>' :: ' ' :: (target.name ++ [';']))
  | .edge relation source target =>
    '\t' :: ((drawnSource relation source target).name ++ ' ' :: '-' :: '>' :: ' ' ::
      ((drawnTarget relation source target).name ++ ' ' :: '[' ::
        (edgeStyle relation ++ "];".toList)))

/-- The statements that draw an event. -/
def statementsOf : Event → List Statement
  | .classStart name => [.opening name, .label .top name]
  | .classEnd _ => [.closing]
  | .methodStart signature root =>
    [.blank, .begins signature, .label (.method root.id) signature, .link .top (.method root.id),
      .link (.method root.id) (.thing .node root.id)]
  | .methodEnd signature _ => [.ends signature]
  | .entity sort visit => [.label (.thing sort visit.id) visit.label]
  | .edge relation source target => [.edge relation source.id target.id]

/-- The text of an event is that of its statements, a line for each. -/
theorem eventText_eq (event : Event) :
    eventText event = (statementsOf event).flatMap fun s => s.text ++ ['\n'] := by
  have hquote : "\"];".toList = '"' :: "];".toList := by decide +kernel
  cases event with
  | classStart name =>
    have hbrace : "\" \x7b\n".toList = '"' :: (" \x7b".toList ++ ['\n']) := by decide +kernel
    have hlabel : "C [label=\"class ".toList =
        'C' :: ' ' :: '[' :: ("label=\"".toList ++ ['c', 'l', 'a', 's', 's', ' ']) := by
      decide +kernel
    show "digraph \"".toList ++ escape name ++ "\" \x7b\n".toList ++
      line ("C [label=\"class ".toList ++ escape name ++ "\"];".toList) =
        [Statement.opening name, .label .top name].flatMap _
    rw [List.flatMap_cons, List.flatMap_singleton, hbrace, hlabel, hquote]
    unfold Statement.text
    simp only [line, Point.name, Point.title, Point.style, List.append_assoc, List.cons_append,
      List.nil_append]
  | classEnd name =>
    show "\x7d\n".toList = [Statement.closing].flatMap _
    decide +kernel
  | methodStart signature root =>
    have hslash : "//".toList = ['/', '/'] := by decide +kernel
    have hlabel : "[label=\"M:".toList = '[' :: ("label=\"".toList ++ ['M', ':']) := by
      decide +kernel
    have hto : "-> ".toList = ['-', '>', ' '] := by decide +kernel
    rw [eventText_methodStart, hslash, hlabel, hto, hquote]
    unfold statementsOf Statement.text
    simp only [line, Point.name, Point.title, Point.style, List.flatMap_cons, List.flatMap_nil,
      List.append_assoc, List.cons_append, List.nil_append, List.append_nil]
  | methodEnd signature root =>
    have hslash : "// end method ".toList = '/' :: '/' :: ' ' :: "end method ".toList := by
      decide +kernel
    show line ("// end method ".toList ++ escape signature) = [Statement.ends signature].flatMap _
    rw [List.flatMap_singleton, hslash]
    rfl
  | entity sort visit =>
    show entityLine sort visit = [Statement.label (.thing sort visit.id) visit.label].flatMap _
    rw [List.flatMap_singleton, entityLine_eq]
    unfold Statement.text
    simp only [line, Point.name, Point.title, Point.style, List.append_assoc, List.cons_append,
      List.nil_append]
  | edge relation source target =>
    show edgeLine relation source.id target.id =
      [Statement.edge relation source.id target.id].flatMap _
    rw [List.flatMap_singleton, edgeLine_eq]
    cases relation <;> rfl

/-! ## The reader -/

/-- The first word of a text, and what stands behind the space after it. -/
def firstWord (text : List Char) : List Char × List Char :=
  (text.takeWhile (· ≠ ' '), (text.dropWhile (· ≠ ' ')).drop 1)

/-- Reads the name of a point. -/
def readPoint? : List Char → Option Point
  | ['C'] => some .top
  | 'M' :: digits => (readNumber? digits).map .method
  | text => (readName? text).map fun thing => .thing thing.1 thing.2

/-- Reads the rest of the line of a point, behind the bracket. -/
def readLabel? (point : Point) (text : List Char) : Option Statement := do
  let text ← ("label=\"".toList ++ point.title).isPrefixOf? text
  let parts ← splitQuote? text
  if parts.2 = point.style ++ "];".toList then
    some (.label point (String.ofList (unescape parts.1)))
  else none

/-- Reads the relation between things of two sorts off the attributes of an arrow. -/
def readRelation? (source target : Entity) (attributes : List Char) : Option Relation :=
  (Relation.inner ++ [Relation.returnsTo]).find? fun relation =>
    drawnSorts relation = (source, target) ∧
      '[' :: (edgeStyle relation ++ "];".toList) = attributes

/-- Reads an arrow without attributes off the name of its target. -/
def readLink? (source : Point) (target : List Char) : Option Statement :=
  if target.getLast? = some ';' then (readPoint? target.dropLast).map (.link source) else none

/-- Reads an edge off the names of its ends and its attributes. -/
def readEdge? (source target : Point) (attributes : List Char) : Option Statement :=
  match source, target with
  | .thing sort i, .thing other j =>
    (readRelation? sort other attributes).map fun relation =>
      .edge relation (drawnIds relation (i, j)).1 (drawnIds relation (i, j)).2
  | _, _ => none

/-- Reads the rest of the line of an arrow, behind its head. -/
def readArrowHead? (source : Point) (text : List Char) : Option Statement :=
  if (firstWord text).2 = [] then readLink? source (firstWord text).1
  else (readPoint? (firstWord text).1).bind (readEdge? source · (firstWord text).2)

/-- Reads a comment. -/
def readComment? (text : List Char) : Option Statement :=
  match "begin method ".toList.isPrefixOf? text with
  | some signature => some (.begins (String.ofList (unescape signature)))
  | none => ("end method ".toList.isPrefixOf? text).map fun signature =>
      .ends (String.ofList (unescape signature))

/-- Reads the first line of a drawing. -/
def readOpening? (text : List Char) : Option Statement := do
  let text ← "digraph \"".toList.isPrefixOf? text
  let parts ← splitQuote? text
  if parts.2 = " \x7b".toList then some (.opening (String.ofList (unescape parts.1))) else none

/-- Reads a line that draws something. -/
def readDrawn? (text : List Char) : Option Statement := do
  let point ← readPoint? (firstWord text).1
  match (firstWord text).2 with
  | '[' :: rest => readLabel? point rest
  | '-' :: '>' :: ' ' :: rest => readArrowHead? point rest
  | _ => none

/-- Reads a line. -/
def readLine? : List Char → Option Statement
  | [] => some .blank
  | ['\x7d'] => some .closing
  | '\t' :: '/' :: '/' :: ' ' :: text => readComment? text
  | '\t' :: text => readDrawn? text
  | text => readOpening? text

/-- Reads all lines of a text. -/
def statements? (text : List Char) : Option (List Statement) :=
  (text.splitOn '\n').dropLast.mapM readLine?

/-! ## Reading what has been written -/

/-- A list whose members can all be read is read. -/
theorem mapM_of_forall {α : Type} {f : α → Option α} (h : ∀ a, f a = some a) (xs : List α) :
    xs.mapM f = some xs := by
  induction xs with
  | nil => rfl
  | cons x xs ih =>
    rw [List.mapM_cons, h, ih]
    rfl

/-- What is behind a front is what is left of the text without it. -/
theorem isPrefixOf?_append (front rest : List Char) :
    front.isPrefixOf? (front ++ rest) = some rest := by
  induction front with
  | nil => rfl
  | cons c front ih =>
    show (if c == c then front.isPrefixOf? (front ++ rest) else none) = some rest
    rw [if_pos (beq_self_eq_true c), ih]

theorem firstWord_append {word : List Char} (h : ' ' ∉ word) (rest : List Char) :
    firstWord (word ++ ' ' :: rest) = (word, rest) := by
  have hword : ∀ c ∈ word, decide (c ≠ ' ') = true :=
    fun c hc => decide_eq_true fun heq => h (heq ▸ hc)
  rw [firstWord, List.takeWhile_append_of_pos hword, List.dropWhile_append_of_pos hword]
  simp

theorem firstWord_of_not_mem {word : List Char} (h : ' ' ∉ word) : firstWord word = (word, []) := by
  have hword : ∀ c ∈ word, decide (c ≠ ' ') = true :=
    fun c hc => decide_eq_true fun heq => h (heq ▸ hc)
  rw [firstWord, List.takeWhile_eq_self_iff.mpr hword, List.dropWhile_eq_nil_iff.mpr hword]
  rfl

/-- A character of the name of a point is one of the letters or a digit. -/
theorem not_mem_pointName {c : Char} (hdigit : c.isDigit = false)
    (hmark : c ∉ ['C', 'M', 'N', 'T', 'S', 'V']) (point : Point) : c ∉ point.name := by
  simp only [List.mem_cons, List.not_mem_nil, or_false, not_or] at hmark
  obtain ⟨hC, hM, hN, hT, hS, hV⟩ := hmark
  cases point with
  | top => simpa [Point.name] using hC
  | method id => simp [Point.name, hM, not_mem_toDigits hdigit id]
  | thing sort id =>
    refine not_mem_name hdigit ?_ id
    cases sort <;> simp [mark, *]

theorem space_not_mem_pointName (point : Point) : ' ' ∉ point.name :=
  not_mem_pointName rfl (by decide) point

theorem readPoint?_name (point : Point) : readPoint? point.name = some point := by
  cases point with
  | top => rfl
  | method id => exact congrArg (Option.map _) (readNumber?_toDigits id)
  | thing sort id =>
    have hread := congrArg (Option.map fun thing => Point.thing thing.1 thing.2)
      (readName?_name sort id)
    cases sort <;> exact hread

/-- The text of a label is read back, whatever is in it. -/
theorem readLabel?_text (point : Point) (text : String) :
    readLabel? point ("label=\"".toList ++ point.title ++
      (escape text ++ '"' :: (point.style ++ "];".toList))) = some (.label point text) := by
  rw [readLabel?, isPrefixOf?_append, Option.bind_eq_bind, Option.bind_some, splitQuote?_escape,
    Option.bind_eq_bind, Option.bind_some, if_pos rfl, ofList_unescape_escape]

/-- The name of the class is read back, whatever is in it. -/
theorem readOpening?_text (name : String) :
    readOpening? ("digraph \"".toList ++ (escape name ++ '"' :: " \x7b".toList)) =
      some (.opening name) := by
  rw [readOpening?, isPrefixOf?_append, Option.bind_eq_bind, Option.bind_some, splitQuote?_escape,
    Option.bind_eq_bind, Option.bind_some, if_pos rfl, ofList_unescape_escape]

theorem readLink?_text (source target : Point) :
    readLink? source (target.name ++ [';']) = some (.link source target) := by
  rw [readLink?, if_pos List.getLast?_concat, List.dropLast_concat, readPoint?_name,
    Option.map_some]

/-- No two relations are drawn alike. -/
theorem readRelation?_drawnSorts (relation : Relation) :
    readRelation? (drawnSorts relation).1 (drawnSorts relation).2
      ('[' :: (edgeStyle relation ++ "];".toList)) = some relation := by
  cases relation <;> decide +kernel

/-- An edge is read back with its relation and in its own direction. -/
theorem readEdge?_text (relation : Relation) (source target : Nat) :
    readEdge? (drawnSource relation source target) (drawnTarget relation source target)
      ('[' :: (edgeStyle relation ++ "];".toList)) = some (.edge relation source target) := by
  rw [drawnSource, drawnTarget, readEdge?, readRelation?_drawnSorts, Option.map_some]
  cases relation <;> rfl

theorem readArrowHead?_link (source target : Point) :
    readArrowHead? source (target.name ++ [';']) = some (.link source target) := by
  have hspace : ' ' ∉ target.name ++ [';'] := by
    rw [List.mem_append, not_or]
    exact ⟨space_not_mem_pointName target, by decide⟩
  rw [readArrowHead?, firstWord_of_not_mem hspace, if_pos rfl, readLink?_text]

theorem readArrowHead?_edge (relation : Relation) (source target : Nat) :
    readArrowHead? (drawnSource relation source target)
        ((drawnTarget relation source target).name ++ ' ' :: '[' ::
          (edgeStyle relation ++ "];".toList)) = some (.edge relation source target) := by
  rw [readArrowHead?, firstWord_append (space_not_mem_pointName _), if_neg (List.cons_ne_nil _ _),
    readPoint?_name, Option.bind_some, readEdge?_text]

/-- A bracket behind a point begins its label. -/
theorem readDrawn?_label (point : Point) (rest : List Char) :
    readDrawn? (point.name ++ ' ' :: '[' :: rest) = readLabel? point rest := by
  rw [readDrawn?, firstWord_append (space_not_mem_pointName point), readPoint?_name]
  rfl

theorem readDrawn?_arrow (point : Point) (rest : List Char) :
    readDrawn? (point.name ++ ' ' :: '-' :: '>' :: ' ' :: rest) = readArrowHead? point rest := by
  rw [readDrawn?, firstWord_append (space_not_mem_pointName point), readPoint?_name]
  rfl

/-- The comment before a method gives its signature. -/
theorem readComment?_begins (signature : String) :
    readComment? ("begin method ".toList ++ escape signature) = some (.begins signature) := by
  rw [readComment?, isPrefixOf?_append]
  exact congrArg (some <| Statement.begins ·) (ofList_unescape_escape signature)

/-- The comment behind a method gives its signature. -/
theorem readComment?_ends (signature : String) :
    readComment? ("end method ".toList ++ escape signature) = some (.ends signature) := by
  have hbegins : "begin method ".toList.isPrefixOf? ("end method ".toList ++ escape signature) =
      none := rfl
  rw [readComment?, hbegins, isPrefixOf?_append]
  exact congrArg (some <| Statement.ends ·) (ofList_unescape_escape signature)

/-- What is drawn is no comment. -/
theorem readLine?_drawn (point : Point) (rest : List Char) :
    readLine? ('\t' :: (point.name ++ rest)) = readDrawn? (point.name ++ rest) := by
  cases point with
  | top => rfl
  | method id => rfl
  | thing sort id => cases sort <;> rfl

/-- **Each statement is read off its line.** -/
theorem readLine?_text (s : Statement) : readLine? s.text = some s := by
  cases s with
  | blank => rfl
  | closing => rfl
  | opening name => exact readOpening?_text name
  | begins signature => exact readComment?_begins signature
  | ends signature => exact readComment?_ends signature
  | label point text =>
    exact (readLine?_drawn point _).trans
      ((readDrawn?_label point _).trans (readLabel?_text point text))
  | link source target =>
    exact (readLine?_drawn source _).trans
      ((readDrawn?_arrow source _).trans (readArrowHead?_link source target))
  | edge relation source target =>
    exact (readLine?_drawn _ _).trans
      ((readDrawn?_arrow _ _).trans (readArrowHead?_edge relation source target))

theorem newline_not_mem_title (point : Point) : '\n' ∉ point.title := by
  cases point with
  | top => decide
  | method id =>
    show '\n' ∉ ['M', ':']
    decide
  | thing sort id =>
    show '\n' ∉ mark sort ++ [':']
    cases sort <;> decide

theorem newline_not_mem_style (point : Point) : '\n' ∉ point.style := by
  cases point with
  | top => exact List.not_mem_nil
  | method id => exact List.not_mem_nil
  | thing sort id =>
    show '\n' ∉ Dot.style sort
    cases sort <;> decide +kernel

/-- A statement is written on one line. -/
theorem newline_not_mem_text (s : Statement) : '\n' ∉ s.text := by
  have hname (point : Point) : '\n' ∉ point.name :=
    not_mem_pointName rfl (by decide) point
  have hedge (relation : Relation) : '\n' ∉ edgeStyle relation := by
    cases relation <;> decide +kernel
  have hescape := newline_not_mem_escape
  cases s with
  | blank => exact List.not_mem_nil
  | closing =>
    show '\n' ∉ ['\x7d']
    decide
  | opening name =>
    show '\n' ∉ "digraph \"".toList ++ (escape name ++ '"' :: " \x7b".toList)
    simp only [List.mem_append, List.mem_cons, not_or]
    exact ⟨by decide +kernel, hescape name, by decide, by decide +kernel⟩
  | begins signature =>
    show '\n' ∉ '\t' :: '/' :: '/' :: ' ' :: ("begin method ".toList ++ escape signature)
    simp only [List.mem_append, List.mem_cons, not_or]
    exact ⟨by decide, by decide, by decide, by decide, by decide +kernel, hescape signature⟩
  | ends signature =>
    show '\n' ∉ '\t' :: '/' :: '/' :: ' ' :: ("end method ".toList ++ escape signature)
    simp only [List.mem_append, List.mem_cons, not_or]
    exact ⟨by decide, by decide, by decide, by decide, by decide +kernel, hescape signature⟩
  | label point text =>
    unfold Statement.text
    simp only [List.mem_append, List.mem_cons, not_or]
    exact ⟨by decide, hname point, by decide, by decide, ⟨by decide +kernel,
      newline_not_mem_title point⟩, hescape text, by decide, newline_not_mem_style point,
      by decide +kernel⟩
  | link source target =>
    unfold Statement.text
    simp only [List.mem_append, List.mem_cons, not_or]
    exact ⟨by decide, hname source, by decide, by decide, by decide, by decide, hname target,
      by decide⟩
  | edge relation source target =>
    unfold Statement.text
    simp only [List.mem_append, List.mem_cons, not_or]
    exact ⟨by decide, hname _, by decide, by decide, by decide, by decide, hname _, by decide,
      by decide, hedge relation, by decide +kernel⟩

/-- **The lines of a drawing are the statements of its events.** -/
theorem statements?_render (events : List Event) :
    statements? (render events) = some (events.flatMap statementsOf) := by
  have hrender : render events =
      ((events.flatMap statementsOf).map Statement.text).flatMap (· ++ ['\n']) := by
    rw [List.flatMap_map, List.flatMap_assoc]
    exact List.flatMap_congr fun event _ => eventText_eq event
  have hlines : ∀ line ∈ (events.flatMap statementsOf).map Statement.text, '\n' ∉ line := by
    intro line hline
    obtain ⟨s, -, rfl⟩ := List.mem_map.mp hline
    exact newline_not_mem_text s
  rw [statements?, hrender, splitOn_flatMap hlines, List.dropLast_concat, List.mapM_map]
  exact mapM_of_forall readLine?_text _

end Dot

end CodeGraph

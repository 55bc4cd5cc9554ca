/-
# A drawing is read back

`Dot.decode?` makes the events of a walk out of the statements of its drawing: a statement adds one
event or none, and the ends of an edge, which the drawing names by their numbers alone, get the
labels under which they are drawn.  For the class of a run it gives back every event of the walk
(`ClassBuilder.IsRun.decode?_drawing`).
-/
import CodeGraph.Proofs.Walk.Announced
import CodeGraph.Proofs.Walk.Statements

namespace CodeGraph

/-! ## From statements to events -/

namespace Dot

/-- The thing that a statement draws. -/
def Statement.thing? : Statement → Option Visit
  | .label (.thing _ id) text => some ⟨id, text⟩
  | _ => none

/-- The thing of the given number. -/
def visit? (things : List Visit) (id : Nat) : Option Visit := things.find? (·.id = id)

/-- How far the statements have been read: the class and the method at hand, and the events. -/
structure Reading where
  name : String := ""
  root : Visit := ⟨0, ""⟩
  events : List Event := []

namespace Reading

/-- One more event. -/
def add (reading : Reading) (event : Event) : Reading :=
  { reading with events := reading.events ++ [event] }

/-- Reads one more statement of a drawing of the given things. -/
def step? (things : List Visit) (reading : Reading) : Statement → Option Reading
  | .opening name => some ({ reading with name }.add (.classStart name))
  | .closing => some (reading.add (.classEnd reading.name))
  | .label (.method id) signature =>
    (visit? things id).map fun root => { reading with root }.add (.methodStart signature root)
  | .ends signature => some (reading.add (.methodEnd signature reading.root))
  | .label (.thing sort id) text => some (reading.add (.entity sort ⟨id, text⟩))
  | .edge relation source target => do
    let source ← visit? things source
    let target ← visit? things target
    return reading.add (.edge relation source target)
  | .blank | .begins _ | .label .top _ | .link _ _ => some reading

end Reading

/-- The events that a drawing shows. -/
def decode? (text : List Char) : Option (List Event) := do
  let statements ← statements? text
  let reading ← statements.foldlM (Reading.step? (statements.filterMap Statement.thing?)) {}
  return reading.events

end Dot

/-! ## Things -/

/-- The thing that an event announces. -/
def Event.announced? : Event → Option Visit
  | .entity _ visit => some visit
  | _ => none

/-- The things that are announced. -/
def thingsOf (events : List Event) : List Visit := events.filterMap Event.announced?

namespace Dot

/-- What is drawn as a thing is what is announced. -/
theorem filterMap_thing? (events : List Event) :
    (events.flatMap statementsOf).filterMap Statement.thing? = thingsOf events := by
  induction events with
  | nil => rfl
  | cons event events ih =>
    have hevent : (statementsOf event).filterMap Statement.thing? = event.announced?.toList := by
      cases event <;> rfl
    rw [List.flatMap_cons, List.filterMap_append, hevent, ih, thingsOf, thingsOf,
      List.filterMap_cons]
    cases event.announced? <;> rfl

/-- Things of different numbers are found by their numbers. -/
theorem visit?_eq_some {things : List Visit} (hids : (things.map Visit.id).Nodup) {visit : Visit}
    (hvisit : visit ∈ things) : visit? things visit.id = some visit := by
  induction things with
  | nil => cases hvisit
  | cons first things ih =>
    obtain ⟨hfirst, hids⟩ := List.nodup_cons.mp hids
    rw [visit?, List.find?_cons]
    rcases List.mem_cons.mp hvisit with rfl | hvisit
    · rw [decide_eq_true rfl]
    · have hne : first.id ≠ visit.id := fun heq => hfirst (heq ▸ List.mem_map_of_mem hvisit)
      rw [decide_eq_false hne]
      exact ih hids hvisit

/-! ## One event after the other -/

/-- The ends of the edge are known, if the event is one. -/
def Knows (things : List Visit) : Event → Prop
  | .entity _ _ => True
  | .edge _ source target =>
    visit? things source.id = some source ∧ visit? things target.id = some target
  | _ => False

namespace Reading

variable {things : List Visit}

/-- The things and edges of a method are read one by one. -/
theorem foldlM_inner {inner : List Event} (h : ∀ event ∈ inner, Knows things event)
    (reading : Reading) : (inner.flatMap statementsOf).foldlM (step? things) reading =
      some { reading with events := reading.events ++ inner } := by
  induction inner generalizing reading with
  | nil =>
    rw [List.append_nil]
    rfl
  | cons event inner ih =>
    have hstep : (statementsOf event).foldlM (step? things) reading = some (reading.add event) := by
      have hknows := h event List.mem_cons_self
      cases event with
      | entity sort visit => rfl
      | edge relation source target =>
        simp only [statementsOf, List.foldlM_cons, step?, hknows.1, hknows.2]
        rfl
      | classStart name => exact hknows.elim
      | classEnd name => exact hknows.elim
      | methodStart signature root => exact hknows.elim
      | methodEnd signature root => exact hknows.elim
    rw [List.flatMap_cons, List.foldlM_append, hstep, Option.bind_eq_bind, Option.bind_some,
      ih fun event hevent => h event (List.mem_cons_of_mem _ hevent), add, List.append_assoc,
      List.singleton_append]

/-- A method that is read: it begins and ends with its root, and its edges have known ends. -/
def IsMethod (things : List Visit) (block : List Event) : Prop :=
  ∃ signature root inner, block = .methodStart signature root ::
      (inner ++ [.methodEnd signature root]) ∧
    visit? things root.id = some root ∧ ∀ event ∈ inner, Knows things event

/-- The statements of a method give its events back. -/
theorem foldlM_method {block : List Event} (h : IsMethod things block) (reading : Reading) :
    ∃ root, (block.flatMap statementsOf).foldlM (step? things) reading =
      some { reading with root, events := reading.events ++ block } := by
  obtain ⟨signature, root, inner, rfl, hroot, hinner⟩ := h
  have hstart : (statementsOf (.methodStart signature root)).foldlM (step? things) reading =
      some ({ reading with root }.add (.methodStart signature root)) := by
    simp only [statementsOf, List.foldlM_cons, step?, hroot]
    rfl
  refine ⟨root, ?_⟩
  rw [List.flatMap_cons, List.flatMap_append, List.flatMap_singleton, List.foldlM_append, hstart,
    Option.bind_eq_bind, Option.bind_some, List.foldlM_append, foldlM_inner hinner,
    Option.bind_eq_bind, Option.bind_some]
  show some (Reading.mk _ _ _) = some (Reading.mk _ _ _)
  simp only [add, List.append_assoc, List.cons_append, List.nil_append]

/-- The statements of methods give their events back. -/
theorem foldlM_methods {blocks : List (List Event)} (h : ∀ block ∈ blocks, IsMethod things block)
    (reading : Reading) : ∃ root,
      (blocks.flatten.flatMap statementsOf).foldlM (step? things) reading =
        some { reading with root, events := reading.events ++ blocks.flatten } := by
  induction blocks generalizing reading with
  | nil => exact ⟨reading.root, by rw [List.flatten_nil, List.append_nil]; rfl⟩
  | cons block blocks ih =>
    obtain ⟨first, hfirst⟩ := foldlM_method (h block List.mem_cons_self) reading
    obtain ⟨root, hrest⟩ := ih (fun other hother => h other (List.mem_cons_of_mem _ hother))
      { reading with root := first, events := reading.events ++ block }
    refine ⟨root, ?_⟩
    rw [List.flatten_cons, List.flatMap_append, List.foldlM_append, hfirst, Option.bind_eq_bind,
      Option.bind_some, hrest, List.append_assoc]

end Reading

/-- A class whose methods are read is read back. -/
theorem decode?_render {name : String} {blocks : List (List Event)} {events : List Event}
    (hevents : events = .classStart name :: (blocks.flatten ++ [.classEnd name]))
    (h : ∀ block ∈ blocks, Reading.IsMethod (thingsOf events) block) :
    decode? (render events) = some events := by
  obtain ⟨root, hmethods⟩ := Reading.foldlM_methods h { name, events := [.classStart name] }
  rw [decode?, statements?_render, Option.bind_eq_bind, Option.bind_some, filterMap_thing?]
  have hfold : (events.flatMap statementsOf).foldlM (Reading.step? (thingsOf events)) {} =
      some { name, root, events } := by
    rw [hevents, List.flatMap_cons, List.flatMap_append, List.flatMap_singleton,
      List.foldlM_append, ← hevents]
    show (blocks.flatten.flatMap statementsOf ++ _).foldlM _
      (Reading.mk name ⟨0, ""⟩ [.classStart name]) = _
    rw [List.foldlM_append, hmethods, hevents]
    rfl
  rw [hfold]
  rfl

end Dot

/-! ## The class of a run -/

namespace ClassGraph

/-- **A walk is read back from its drawing.** -/
theorem IsWalk.decode?_render {graph : ClassGraph} {first : Nat} {events : List Event}
    {rest : IdSequence} (h : graph.IsWalk first events rest) :
    Dot.decode? (Dot.render events) = some events := by
  obtain ⟨blocks, hevents, hlength, hblock⟩ := h.blocks
  have hids : ((thingsOf events).map Visit.id).Nodup := by
    have hmap : (thingsOf events).map Visit.id = events.filterMap Event.announcedId? := by
      rw [thingsOf, List.map_filterMap]
      refine List.filterMap_congr fun event _ => ?_
      cases event <;> rfl
    rw [hmap, h.ids]
    exact List.nodup_range'
  -- whatever is announced in a method is found by its number
  have hknown {sort : Entity} {block : List Event} (hmem : block ∈ blocks) {visit : Visit}
      (hvisit : visit ∈ announced sort block) :
      Dot.visit? (thingsOf events) visit.id = some visit := by
    refine Dot.visit?_eq_some hids ?_
    obtain ⟨event, hevent, hannounces⟩ := List.mem_filterMap.mp hvisit
    refine List.mem_filterMap.mpr ⟨event, ?_, ?_⟩
    · rw [hevents]
      exact List.mem_cons_of_mem _ (List.mem_append_left _ (List.mem_flatten_of_mem hmem hevent))
    · cases event with
      | entity s v =>
        rw [Event.announces?] at hannounces
        split at hannounces
        · exact hannounces
        · cases hannounces
      | _ => cases hannounces
  refine Dot.decode?_render hevents fun block hmem => ?_
  obtain ⟨index, hindex⟩ := List.mem_iff_getElem?.mp hmem
  have hlt : index < graph.methods.length := hlength ▸ (List.getElem?_eq_some_iff.mp hindex).1
  have hmethod := hblock index _ block (List.getElem?_eq_getElem hlt) hindex
  obtain ⟨root, things, edges, hframe, hroot, hthings, hedges⟩ := hmethod.framed
  refine ⟨_, root, things ++ edges, hframe, hknown hmem (List.mem_of_head? hroot), ?_⟩
  intro event hevent
  rcases List.mem_append.mp hevent with hevent | hevent
  · obtain ⟨sort, visit, rfl⟩ := hthings event hevent
    trivial
  · obtain ⟨relation, source, target, rfl⟩ := hedges event hevent
    have hedge : .edge relation source target ∈ block := by
      rw [hframe]
      exact List.mem_cons_of_mem _ (List.mem_append_left _ (List.mem_append_right _ hevent))
    refine ⟨?_, hknown hmem (hmethod.target _ _ _ hedge)⟩
    by_cases hreturns : relation = .returnsTo
    · -- a call site is announced in the method that it names, which may be another one
      subst hreturns
      obtain ⟨i, token, site, caller, other, -, -, -, -, hother, hsource⟩ :=
        hmethod.callSite source target hedge
      exact hknown (List.mem_of_getElem? hother) (List.mem_of_getElem? hsource)
    · exact hknown hmem (hmethod.source _ _ _ hedge hreturns)

end ClassGraph

namespace ClassBuilder

/-- **A drawing can be read in one way only.**  Unless the numbers run out, the drawing of the class
of a run is read line by line as the statements of the events of its walk, and these as the events.
No text brings a line end into the drawing or ends its label early, and escapes are undone. -/
theorem IsRun.decode?_drawing {builder : ClassBuilder} (h : builder.IsRun) {ids : IdSequence}
    (hids : builder.build.walk ids ≠ .error .idsExhausted) :
    (∃ events rest, builder.build.walk ids = .ok (events, rest) ∧
      Dot.statements? (Dot.render events) = some (events.flatMap Dot.statementsOf) ∧
      Dot.decode? (Dot.render events) = some events) ∧
    ∀ (text : String) (rest : List Char), '\n' ∉ Dot.escape text ∧
      Dot.splitQuote? (Dot.escape text ++ '"' :: rest) = some (Dot.escape text, rest) ∧
      Dot.unescape (Dot.escape text) = text.toList := by
  have hfits : ids.next + builder.build.idCount ≤ idLimit := by
    by_contra hlt
    exact hids (h.sound.walk_eq_error (Nat.not_le.mp hlt)).1
  obtain ⟨events, rest, hwalk, hevents⟩ := h.sound.exists_isWalk hfits
  refine ⟨⟨events, rest, hwalk, Dot.statements?_render events, hevents.decode?_render⟩, ?_⟩
  intro text rest
  exact ⟨Dot.newline_not_mem_escape text, Dot.splitQuote?_escape text rest,
    Dot.unescape_escape text⟩

/-- A run whose names, signatures and texts look like lines of a drawing. -/
def disguisedSteps : List Session.Step :=
  [.openMethod "a\"];\n\tM0 -> NT0;", .move (.descendCall .methodInvocation "b\\"),
    .move (.emit "\"\\\"];\n\tT1 -> T2 [color=blue,label=\\\"next token\\\"];\"" .literal),
    .move (.emit "return" .plain), .move .ascend, .close, .add 0,
    .openMethod "b\\", .move (.emit "// end method b\\\\" .identifier), .close, .add 1]

/-- The class of these methods. -/
def disguisedBuilder : ClassBuilder :=
  ((Session.start "C \"\\n\n\t// begin method C").run disguisedSteps).builder?.getD { name := "C" }

/-- The class whose texts look like lines of a drawing is built by a run. -/
theorem isRun_disguisedBuilder : disguisedBuilder.IsRun :=
  ⟨"C \"\\n\n\t// begin method C", disguisedSteps, by decide, by decide +kernel⟩

/-- The class whose texts look like lines of a drawing can be walked. -/
theorem walk_disguisedBuilder : disguisedBuilder.build.walk .fresh ≠ .error .idsExhausted :=
  ne_error_of_toBool (by decide +kernel) _

/-- Texts that look like lines of a drawing are read back as texts. -/
theorem IsRun.decode?_drawing_disguised :
    disguisedBuilder.IsRun ∧ disguisedBuilder.build.walk .fresh ≠ .error .idsExhausted ∧
    ∃ events rest, disguisedBuilder.build.walk .fresh = .ok (events, rest) ∧
      Dot.statements? (Dot.render events) = some (events.flatMap Dot.statementsOf) ∧
      Dot.decode? (Dot.render events) = some events :=
  ⟨isRun_disguisedBuilder, walk_disguisedBuilder,
    (IsRun.decode?_drawing isRun_disguisedBuilder walk_disguisedBuilder).1⟩

end ClassBuilder

end CodeGraph

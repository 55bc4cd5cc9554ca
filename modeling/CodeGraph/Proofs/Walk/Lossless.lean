/-
# Walks lose nothing

The events of a walk fall apart into those of the methods, and what is read in the events of a
method determines the method.  So two classes of runs that are walked with the same events have
the same name and the same methods, and the same words if there is a method at all
(`ClassBuilder.IsRun.eq_of_walk`).
-/
import CodeGraph.Proofs.Walk.Announced
import CodeGraph.Proofs.Walk.Determined

namespace CodeGraph

/-! ## Lists of blocks -/

/-- The list begins with an item of a sort that it has nowhere else. -/
def Heads {α : Type} (p : α → Prop) (xs : List α) : Prop :=
  ∃ a rest, xs = a :: rest ∧ p a ∧ ∀ b ∈ rest, ¬ p b

/-- Where each list begins with such a member, so does what they give together. -/
theorem head?_flatten_of_heads {α : Type} {p : α → Prop} {xss : List (List α)}
    (h : ∀ xs ∈ xss, Heads p xs) : ∀ a, xss.flatten.head? = some a → p a := by
  intro a ha
  cases xss with
  | nil => cases ha
  | cons xs xss =>
    obtain ⟨b, rest, rfl, hb, -⟩ := h xs List.mem_cons_self
    cases ha
    exact hb

/-- Lists that begin with such items fall apart in one way after they have been joined. -/
theorem eq_of_flatten_eq {α : Type} {p : α → Prop} {xss yss : List (List α)}
    (hxss : ∀ xs ∈ xss, Heads p xs) (hyss : ∀ ys ∈ yss, Heads p ys)
    (h : xss.flatten = yss.flatten) : xss = yss := by
  induction xss generalizing yss with
  | nil =>
    cases yss with
    | nil => rfl
    | cons ys yss =>
      obtain ⟨b, rest, rfl, -⟩ := hyss ys List.mem_cons_self
      cases h
  | cons xs xss ih =>
    obtain ⟨a, rest, rfl, -, hrest⟩ := hxss xs List.mem_cons_self
    cases yss with
    | nil => cases h
    | cons ys yss =>
      obtain ⟨b, rest', rfl, -, hrest'⟩ := hyss ys List.mem_cons_self
      have hxss' := fun xs hxs => hxss xs (List.mem_cons_of_mem _ hxs)
      have hyss' := fun ys hys => hyss ys (List.mem_cons_of_mem _ hys)
      obtain ⟨rfl, htail⟩ := List.cons.inj h
      obtain ⟨rfl, hflatten⟩ := append_inj_of_head? hrest (head?_flatten_of_heads hxss') hrest'
        (head?_flatten_of_heads hyss') htail
      rw [ih hxss' hyss' hflatten]

/-- Two lists with the same images are the same if items with the same image are. -/
theorem eq_of_map_eq_map {α β : Type} {f g : α → β} {xs ys : List α}
    (hinj : ∀ x ∈ xs, ∀ y ∈ ys, f x = g y → x = y) (h : xs.map f = ys.map g) : xs = ys := by
  induction xs generalizing ys with
  | nil => exact (List.map_eq_nil_iff.mp h.symm).symm
  | cons x xs ih =>
    cases ys with
    | nil => cases h
    | cons y ys =>
      obtain ⟨hhead, htail⟩ := List.cons.inj h
      obtain rfl := hinj x List.mem_cons_self y List.mem_cons_self hhead
      have hinj' := fun a ha b hb =>
        hinj a (List.mem_cons_of_mem x ha) b (List.mem_cons_of_mem x hb)
      rw [ih hinj' htail]

/-! ## Methods -/

namespace Walker

theorem signature_eq {walker other : Walker} (h : walker.events = other.events) :
    walker.method.signature = other.method.signature := by
  rw [events_eq, events_eq] at h
  exact (Event.methodStart.inj (List.cons.inj h).1).1

namespace Stands

variable {walker other : Walker} {start first index : Nat}

/-- The number of the root of the method. -/
theorem root_id (h : walker.Stands start index) :
    (walker.node 0).id = walker.graph.firstId start index :=
  h.laid.node_id h.laid.shaped.size_pos

section

variable (h : walker.Stands start index) (hother : other.Stands first index)
  (hevents : walker.events = other.events)
include h hother hevents

/-- Where a method begins to count is in the events. -/
theorem firstId_eq : walker.graph.firstId start index = other.graph.firstId first index := by
  rw [events_eq, events_eq] at hevents
  rw [← h.root_id, ← hother.root_id, (Event.methodStart.inj (List.cons.inj hevents).1).2]

theorem labelsOf_eq (sort : Entity) : walker.method.labelsOf walker.graph.vocabulary sort =
    other.method.labelsOf other.graph.vocabulary sort := by
  have hannounced := congrArg (fun events => (announced sort events).map Visit.label) hevents
  simp only [h.laid.announced_events, hother.laid.announced_events, List.map_map] at hannounced
  rw [← h.laid.labels_visit, ← hother.laid.labels_visit]
  exact hannounced

/-- How many there are of a sort is in the events. -/
theorem count_eq (sort : Entity) : walker.count sort = other.count sort := by
  have hannounced := congrArg (fun events => (announced sort events).length) hevents
  simp only [h.laid.announced_events, hother.laid.announced_events, List.length_map,
    List.length_range] at hannounced
  exact hannounced

theorem offset_eq (sort : Entity) : walker.method.offset sort = other.method.offset sort := by
  have hnodes : walker.method.nodes.size = other.method.nodes.size :=
    h.count_eq hother hevents .node
  have htokens : walker.method.tokens.size = other.method.tokens.size :=
    h.count_eq hother hevents .token
  have hsymbols : walker.method.symbols.size = other.method.symbols.size :=
    h.count_eq hother hevents .symbol
  cases sort <;> simp only [MethodGraph.offset, hnodes, htokens, hsymbols]

/-- Things of one sort that are visited alike have the same number in their methods. -/
theorem visit_inj {sort : Entity} {i j : Nat} (hi : i < walker.count sort)
    (hj : j < other.count sort) (hvisit : walker.visit sort i = other.visit sort j) : i = j := by
  have hid := congrArg Visit.id hvisit
  rw [h.laid.visit_id hi, hother.laid.visit_id hj, h.offset_eq hother hevents] at hid
  have hfirst := h.firstId_eq hother hevents
  simp only [ClassGraph.firstId] at hfirst
  omega

theorem pairs_eq (relation : Relation) :
    walker.method.pairs relation = other.method.pairs relation := by
  by_cases hrelation : relation = .returnsTo
  · rw [hrelation]
    rfl
  have hjoined := congrArg (joined relation) hevents
  rw [h.joined_events, hother.joined_events, if_neg hrelation, if_neg hrelation, List.append_nil,
    List.append_nil] at hjoined
  refine eq_of_map_eq_map ?_ hjoined
  rintro ⟨i, j⟩ hpair ⟨i', j'⟩ hpair' heq
  obtain ⟨hi, hj⟩ := h.lt_count hpair
  obtain ⟨hi', hj'⟩ := hother.lt_count hpair'
  obtain ⟨hsource, htarget⟩ := Prod.mk.inj heq
  rw [h.visit_inj hother hevents hi hi' hsource, h.visit_inj hother hevents hj hj' htarget]

end

end Stands

end Walker

/-! ## Classes -/

namespace ClassGraph.Sound

variable {graph other : ClassGraph} {start first : Nat}

/-- The events of a walk are those of the methods, one after the other. -/
theorem eq_of_walk_eq_ok (h : graph.Sound) {ids rest : IdSequence} {events : List Event}
    (hwalk : graph.walk ids = .ok (events, rest)) :
    events = .classStart graph.name ::
      ((graph.blocksFrom ids.next).flatten ++ [.classEnd graph.name]) := by
  have hids : graph.walk ids ≠ .error .idsExhausted := by
    rw [hwalk]
    rintro ⟨⟩
  obtain ⟨layouts, rest', hlayouts, -⟩ := h.walk_eq hids
  have hok := hwalk.symm.trans (h.walk_eq_ok hlayouts).1
  exact (Prod.mk.inj (Except.ok.inj hok)).1

/-- Each method has its start at the head of its events, and no other start in them. -/
theorem heads_blocksFrom (h : graph.Sound) (start : Nat) : ∀ block ∈ graph.blocksFrom start,
    Heads (fun event => ∃ signature root, event = .methodStart signature root) block := by
  intro block hblock
  obtain ⟨index, hindex⟩ := List.mem_iff_getElem?.mp hblock
  rw [getElem?_blocksFrom, Option.map_eq_some_iff] at hindex
  obtain ⟨method, hmethod, rfl⟩ := hindex
  obtain ⟨root, things, edges, heq, -, hthings, hedges⟩ := (h.isBlock start hmethod).framed
  refine ⟨_, _, heq, ⟨method.signature, root, rfl⟩, ?_⟩
  rintro event hevent ⟨signature, visit, rfl⟩
  rcases List.mem_append.mp hevent with hevent | hend
  · rcases List.mem_append.mp hevent with hthing | hedge
    · obtain ⟨sort, visit', hthing⟩ := hthings _ hthing
      cases hthing
    · obtain ⟨relation, source, target, hedge⟩ := hedges _ hedge
      cases hedge
  · cases List.mem_singleton.mp hend

/-- Methods with one number give the same events if all methods do. -/
theorem exists_events_eq (hblocks : graph.blocksFrom start = other.blocksFrom first) {index : Nat}
    {method : MethodGraph} (hmethod : graph.methods[index]? = some method) :
    ∃ otherMethod, other.methods[index]? = some otherMethod ∧
      (graph.walkerAt start method index).events =
        (other.walkerAt first otherMethod index).events := by
  have hblock := congrArg (·[index]?) hblocks
  simp only [getElem?_blocksFrom, hmethod, Option.map_some] at hblock
  obtain ⟨otherMethod, hother, hevents⟩ := Option.map_eq_some_iff.mp hblock.symm
  exact ⟨otherMethod, hother, hevents.symm⟩

section

variable (h : graph.Sound) (hother : other.Sound)
  (hblocks : graph.blocksFrom start = other.blocksFrom first)
include h hother hblocks

/-- The methods of two classes with the same events begin to count alike. -/
theorem firstId_eq {index : Nat} {method : MethodGraph}
    (hmethod : graph.methods[index]? = some method) :
    graph.firstId start index = other.firstId first index := by
  obtain ⟨otherMethod, hmethod', hevents⟩ := exists_events_eq hblocks hmethod
  exact (h.stands start hmethod).firstId_eq (hother.stands first hmethod') hevents

/-- A number tells the method and the node of a call site. -/
theorem site_inj {site site' : CallSite} {caller caller' : MethodGraph}
    (hcaller : graph.methods[site.method]? = some caller) (hnode : site.node < caller.nodes.size)
    (hcaller' : other.methods[site'.method]? = some caller')
    (hnode' : site'.node < caller'.nodes.size)
    (hid : graph.firstId start site.method + site.node =
      other.firstId first site'.method + site'.node) : site = site' := by
  have hfirst := h.firstId_eq hother hblocks hcaller
  have hfirst' := hother.firstId_eq h hblocks.symm hcaller'
  -- the numbers of a later method are greater in both classes
  have hlt := Layout.add_lt_firstOf graph.vocabulary.size start hcaller
    (h.shaped caller (List.mem_of_getElem? hcaller)) hnode (j := site'.method)
  have hlt' := Layout.add_lt_firstOf other.vocabulary.size first hcaller'
    (hother.shaped caller' (List.mem_of_getElem? hcaller')) hnode' (j := site.method)
  rw [firstId, firstId] at hfirst hfirst' hid
  have hmethod : site.method = site'.method := by
    rcases Nat.lt_trichotomy site.method site'.method with hm | hm | hm
    · have := hlt hm
      omega
    · exact hm
    · have := hlt' hm
      omega
  rw [hmethod] at hfirst hid
  exact CallSite.ext hmethod (by omega)

/-- The calls that return tokens record are in the events of the class. -/
theorem returnPairs_eq {index : Nat} {method otherMethod : MethodGraph}
    (hmethod : graph.methods[index]? = some method)
    (hmethod' : other.methods[index]? = some otherMethod)
    (hevents : (graph.walkerAt start method index).events =
      (other.walkerAt first otherMethod index).events) :
    method.returnPairs = otherMethod.returnPairs := by
  have hstands := h.stands start hmethod
  have hstands' := hother.stands first hmethod'
  have hjoined := congrArg (joined .returnsTo) hevents
  rw [hstands.joined_events, hstands'.joined_events, if_pos rfl, if_pos rfl] at hjoined
  refine eq_of_map_eq_map ?_ hjoined
  rintro ⟨site, i⟩ hpair ⟨site', i'⟩ hpair' heq
  obtain ⟨token, caller, htoken, -, hcaller, hnode, hid⟩ := hstands.exists_of_mem_returnPairs hpair
  obtain ⟨token', caller', htoken', -, hcaller', hnode', hid'⟩ :=
    hstands'.exists_of_mem_returnPairs hpair'
  obtain ⟨hsource, htarget⟩ := Prod.mk.inj heq
  have hsite := congrArg Visit.id hsource
  rw [hid, hid'] at hsite
  have hi : i < (graph.walkerAt start method index).count .token :=
    (Array.getElem?_eq_some_iff.mp htoken).1
  have hi' : i' < (other.walkerAt first otherMethod index).count .token :=
    (Array.getElem?_eq_some_iff.mp htoken').1
  have hnumber : i = i' := hstands.visit_inj hstands' hevents hi hi' htarget
  rw [h.site_inj hother hblocks hcaller hnode hcaller' hnode' hsite, hnumber]

/-- **Classes that give the same events have the same methods.** -/
theorem methods_eq : graph.methods = other.methods := by
  apply List.ext_getElem?
  intro index
  cases hmethod : graph.methods[index]? with
  | none =>
    cases hmethod' : other.methods[index]? with
    | none => rfl
    | some otherMethod =>
      obtain ⟨method, hsome, -⟩ := exists_events_eq hblocks.symm hmethod'
      rw [hmethod] at hsome
      cases hsome
  | some method =>
    obtain ⟨otherMethod, hmethod', hevents⟩ := exists_events_eq hblocks hmethod
    have hstands := h.stands start hmethod
    have hstands' := hother.stands first hmethod'
    have hreads : method.ReadsAs otherMethod graph.vocabulary other.vocabulary :=
      { signature := Walker.signature_eq hevents
        labels := hstands.labelsOf_eq hstands' hevents
        pairs := hstands.pairs_eq hstands' hevents
        returns := h.returnPairs_eq hother hblocks hmethod hmethod' hevents }
    rw [hmethod', hreads.eq hstands.laid.shaped hstands'.laid.shaped]

/-- **Classes that give the same events have the same words, unless they have no methods.** -/
theorem vocabulary_eq (hmethods : graph.methods ≠ []) : graph.vocabulary = other.vocabulary := by
  obtain ⟨method, methods, hcons⟩ := List.exists_cons_of_ne_nil hmethods
  have hmethod : graph.methods[0]? = some method := by
    rw [hcons]
    rfl
  obtain ⟨otherMethod, hmethod', hevents⟩ := exists_events_eq hblocks hmethod
  have hwords := (h.stands start hmethod).labelsOf_eq (hother.stands first hmethod') hevents .word
  exact Array.toList_inj.mp hwords

end

end ClassGraph.Sound

/-! ## Classes of runs -/

namespace ClassBuilder

/-- **The events of a walk tell everything about the methods.**  If the classes of two runs are
walked with the same events, they have the same name, the same methods, and the same words if
there is any method. -/
theorem IsRun.eq_of_walk {builder other : ClassBuilder} (h : builder.IsRun) (hother : other.IsRun)
    {ids ids' rest rest' : IdSequence} {events : List Event}
    (hwalk : builder.build.walk ids = .ok (events, rest))
    (hwalk' : other.build.walk ids' = .ok (events, rest')) :
    builder.build.name = other.build.name ∧ builder.build.methods = other.build.methods ∧
      (builder.build.methods ≠ [] → builder.build.vocabulary = other.build.vocabulary) := by
  have hevents := (h.sound.eq_of_walk_eq_ok hwalk).symm.trans (hother.sound.eq_of_walk_eq_ok hwalk')
  obtain ⟨hstart, hrest⟩ := List.cons.inj hevents
  have hname := Event.classStart.inj hstart
  rw [hname] at hrest
  have hblocks := eq_of_flatten_eq (h.sound.heads_blocksFrom _) (hother.sound.heads_blocksFrom _)
    (List.append_cancel_right hrest)
  exact ⟨hname, h.sound.methods_eq hother.sound hblocks,
    h.sound.vocabulary_eq hother.sound hblocks⟩

/-- A run that begins with a method it abandons, and then makes the methods of `forwardSteps`. -/
def detourSteps : List Session.Step :=
  [.openMethod "lost:0", .move (.descendCall .methodInvocation "run:0"), .abandon] ++ forwardSteps

/-- The class of these methods. -/
def detourBuilder : ClassBuilder :=
  ((Session.start "C").run detourSteps).builder?.getD { name := "C" }

theorem isRun_detourBuilder : detourBuilder.IsRun :=
  ⟨"C", detourSteps, by decide, by decide +kernel⟩

/-- The calls of the abandoned method make another class, but no other events. -/
theorem walk_detourBuilder : detourBuilder.build ≠ forwardBuilder.build ∧ ∃ events rest,
    forwardBuilder.build.walk .fresh = .ok (events, rest) ∧
      detourBuilder.build.walk .fresh = .ok (events, rest) := by
  have hok : (forwardBuilder.build.walk .fresh).toBool = true := by decide +kernel
  have hsame : detourBuilder.build.walk .fresh = forwardBuilder.build.walk .fresh := by
    decide +kernel
  refine ⟨by decide +kernel, ?_⟩
  rw [hsame]
  cases hwalk : forwardBuilder.build.walk .fresh with
  | error fault =>
    rw [hwalk] at hok
    cases hok
  | ok result => exact ⟨result.1, result.2, rfl, rfl⟩

/-- The method that is abandoned leaves no trace in the walk, nor in what is read off it. -/
theorem IsRun.eq_of_walk_detour :
    forwardBuilder.IsRun ∧ detourBuilder.IsRun ∧ detourBuilder.build ≠ forwardBuilder.build ∧
    (∃ events rest, forwardBuilder.build.walk .fresh = .ok (events, rest) ∧
      detourBuilder.build.walk .fresh = .ok (events, rest)) ∧
    forwardBuilder.build.name = detourBuilder.build.name ∧
    forwardBuilder.build.methods = detourBuilder.build.methods ∧
    (forwardBuilder.build.methods ≠ [] →
      forwardBuilder.build.vocabulary = detourBuilder.build.vocabulary) := by
  obtain ⟨hne, events, rest, hforward, hdetour⟩ := walk_detourBuilder
  exact ⟨isRun_forwardBuilder, isRun_detourBuilder, hne, ⟨events, rest, hforward, hdetour⟩,
    IsRun.eq_of_walk isRun_forwardBuilder isRun_detourBuilder hforward hdetour⟩

end ClassBuilder

end CodeGraph

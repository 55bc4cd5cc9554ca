/-
# Ascents that fail

The only move that can fail is an ascent from the root of the method.  It leaves nothing behind:
without the moves that fail a cursor comes to the same state and the other moves report the same
(`Cursor.Tallies`).  How deep the cursor is follows from the moves alone, and decides what an ascent
or a close comes to (`Cursor.tallies_tryMoves`).
-/
import CodeGraph.Proofs.Build.Journal

namespace CodeGraph

namespace Cursor

/-! ## What moves report -/

/-- The number of what a move makes, a node or a token. -/
def made (cursor : Cursor) : Move → Option Nat
  | .descend _ | .descendCall _ _ => some cursor.nodes.size
  | .emit _ _ => some cursor.tokens.size
  | .ascend => none

/-- What a move reports. -/
def reply (cursor : Cursor) (m : Move) : Except Fault (Option Nat) :=
  (cursor.move m).map fun _ => cursor.made m

/-- What moves report, one after another. -/
def replies (cursor : Cursor) : List Move → List (Except Fault (Option Nat))
  | [] => []
  | m :: moves => cursor.reply m :: (cursor.tryMove m).replies moves

/-- Moves with their reports. -/
def record (cursor : Cursor) (moves : List Move) : List (Move × Except Fault (Option Nat)) :=
  moves.zip (cursor.replies moves)

/-- The moves that do not fail. -/
def succeeding (cursor : Cursor) (moves : List Move) : List Move :=
  ((cursor.record moves).filter (·.2.isOk)).map Prod.fst

/-- The move leads down into a new node. -/
def Move.isDescent : Move → Bool
  | .descend _ | .descendCall _ _ => true
  | .ascend | .emit _ _ => false

/-- How many moves lead down. -/
def descents (moves : List Move) : Nat := moves.countP Move.isDescent

/-- How many ascents do not fail. -/
def ascents (cursor : Cursor) (moves : List Move) : Nat :=
  (cursor.record moves).countP fun entry => decide (entry.1 = .ascend) && entry.2.isOk

/-! ## One move -/

section Move

variable {cursor next : Cursor} {m : Move}

theorem tryMove_eq_of_ok (h : cursor.move m = .ok next) : cursor.tryMove m = next := by
  rw [tryMove, h]

/-- A move that fails changes nothing. -/
theorem tryMove_eq_of_error {fault : Fault} (h : cursor.move m = .error fault) :
    cursor.tryMove m = cursor := by
  rw [tryMove, h]

/-- **Only an ascent from the root fails.** -/
theorem move_eq_error {fault : Fault} (h : cursor.move m = .error fault) :
    m = .ascend ∧ cursor.path = [] ∧ fault = .ascendPastRoot cursor.signature := by
  cases m with
  | descend kind => cases h
  | descendCall kind callee => cases h
  | emit text role => cases h
  | ascend =>
    change cursor.ascend = _ at h
    rw [ascend] at h
    split at h
    · next hpath =>
      cases h
      exact ⟨rfl, hpath, rfl⟩
    · cases h

/-- An ascent fails at the root and nowhere else. -/
theorem ascend_eq_error_iff {fault : Fault} : cursor.ascend = .error fault ↔
    cursor.depth = 0 ∧ fault = .ascendPastRoot cursor.signature := by
  constructor
  · intro h
    obtain ⟨-, hpath, hfault⟩ := move_eq_error (m := .ascend) h
    exact ⟨List.length_eq_zero_iff.mpr hpath, hfault⟩
  · rintro ⟨hdepth, rfl⟩
    rw [ascend, List.length_eq_zero_iff.mp hdepth]

theorem move_signature (h : cursor.move m = .ok next) : next.signature = cursor.signature := by
  rcases move_cases h with ⟨kind, rfl, rfl⟩ | ⟨kind, callee, rfl, rfl⟩ |
    ⟨rfl, node, path, -, rfl⟩ | ⟨text, role, rfl, rfl⟩
  · exact push_signature _ _ _
  · exact push_signature _ _ _
  · rfl
  · exact emit_signature _ _ _

/-- A move that does not fail changes the depth by one just if it leads down or up. -/
theorem move_depth (h : cursor.move m = .ok next) :
    next.depth + (if m = .ascend then 1 else 0) =
      cursor.depth + if m.isDescent = true then 1 else 0 := by
  rcases move_cases h with ⟨kind, rfl, rfl⟩ | ⟨kind, callee, rfl, rfl⟩ |
    ⟨rfl, node, path, hpath, rfl⟩ | ⟨text, role, rfl, rfl⟩
  · rw [depth, push_path]
    rfl
  · rw [depth, push_path]
    rfl
  · rw [depth, depth, hpath]
    rfl
  · rw [depth, emit_path]
    rfl

end Move

/-! ## Moves one after another -/

section Moves

variable {cursor next : Cursor} {m : Move}

theorem tryMoves_cons (cursor : Cursor) (m : Move) (moves : List Move) :
    cursor.tryMoves (m :: moves) = (cursor.tryMove m).tryMoves moves := rfl

/-- A move that succeeds is recorded with what it has made. -/
theorem record_cons_of_ok (h : cursor.move m = .ok next) (moves : List Move) :
    cursor.record (m :: moves) = (m, .ok (cursor.made m)) :: next.record moves := by
  rw [record, replies, tryMove_eq_of_ok h, reply, h]
  rfl

/-- A move that fails is recorded with its fault. -/
theorem record_cons_of_error {fault : Fault} (h : cursor.move m = .error fault)
    (moves : List Move) :
    cursor.record (m :: moves) = (m, .error fault) :: cursor.record moves := by
  rw [record, replies, tryMove_eq_of_error h, reply, h]
  rfl

theorem succeeding_cons_of_ok (h : cursor.move m = .ok next) (moves : List Move) :
    cursor.succeeding (m :: moves) = m :: next.succeeding moves := by
  rw [succeeding, record_cons_of_ok h, List.filter_cons_of_pos rfl, List.map_cons, succeeding]

theorem succeeding_cons_of_error {fault : Fault} (h : cursor.move m = .error fault)
    (moves : List Move) : cursor.succeeding (m :: moves) = cursor.succeeding moves := by
  rw [succeeding, record_cons_of_error h, List.filter_cons_of_neg Bool.false_ne_true, succeeding]

/-- A run of moves, seen as its first move and the rest: a move that fails leaves the cursor as it
is. -/
theorem moves_induction {p : Cursor → List Move → Prop} (nil : ∀ cursor, p cursor [])
    (ok : ∀ cursor m next moves, cursor.move m = .ok next → p next moves → p cursor (m :: moves))
    (error : ∀ cursor m fault moves, cursor.move m = .error fault → p cursor moves →
      p cursor (m :: moves)) (cursor : Cursor) (moves : List Move) : p cursor moves := by
  induction moves generalizing cursor with
  | nil => exact nil cursor
  | cons m moves ih =>
    rcases hm : cursor.move m with fault | next
    · exact error cursor m fault moves hm (ih cursor)
    · exact ok cursor m next moves hm (ih next)

/-- **Without the moves that fail a cursor comes to the same state.** -/
theorem tryMoves_succeeding (cursor : Cursor) (moves : List Move) :
    cursor.tryMoves (cursor.succeeding moves) = cursor.tryMoves moves := by
  induction cursor, moves using moves_induction with
  | nil cursor => rfl
  | ok cursor m next moves hm ih =>
    rw [succeeding_cons_of_ok hm, tryMoves_cons, tryMoves_cons, tryMove_eq_of_ok hm, ih]
  | error cursor m fault moves hm ih =>
    rw [succeeding_cons_of_error hm, tryMoves_cons, tryMove_eq_of_error hm, ih]

/-- **Without the moves that fail the others report the same.** -/
theorem record_succeeding (cursor : Cursor) (moves : List Move) :
    cursor.record (cursor.succeeding moves) = (cursor.record moves).filter (·.2.isOk) := by
  induction cursor, moves using moves_induction with
  | nil cursor => rfl
  | ok cursor m next moves hm ih =>
    rw [succeeding_cons_of_ok hm, record_cons_of_ok hm, record_cons_of_ok hm,
      List.filter_cons_of_pos rfl, ih]
  | error cursor m fault moves hm ih =>
    rw [succeeding_cons_of_error hm, record_cons_of_error hm,
      List.filter_cons_of_neg Bool.false_ne_true, ih]

theorem signature_tryMoves (cursor : Cursor) (moves : List Move) :
    (cursor.tryMoves moves).signature = cursor.signature :=
  tryMoves_of_move (p := fun next => next.signature = cursor.signature)
    (fun _ _ _ h hm => (move_signature hm).trans h) rfl moves

/-- Moves leave the methods of the class alone. -/
theorem methods_tryMoves (cursor : Cursor) (moves : List Move) :
    (cursor.tryMoves moves).builder.methods = cursor.builder.methods :=
  tryMoves_of_move (p := fun next => next.builder.methods = cursor.builder.methods)
    (fun _ _ _ h hm => (move_builder hm).1.trans h) rfl moves

/-- Nothing but ascents fails, and always in the same way. -/
theorem of_error_mem_record (cursor : Cursor) (moves : List Move) :
    ∀ entry ∈ cursor.record moves, ∀ fault, entry.2 = .error fault →
      entry.1 = .ascend ∧ fault = .ascendPastRoot cursor.signature := by
  induction cursor, moves using moves_induction with
  | nil cursor =>
    intro entry hentry
    cases hentry
  | ok cursor m next moves hm ih =>
    rw [record_cons_of_ok hm, ← move_signature hm]
    intro entry hentry fault hfault
    rcases List.mem_cons.mp hentry with rfl | hlater
    · cases hfault
    · exact ih entry hlater fault hfault
  | error cursor m fault moves hm ih =>
    rw [record_cons_of_error hm]
    intro entry hentry fault' hfault
    rcases List.mem_cons.mp hentry with rfl | hlater
    · cases hfault
      obtain ⟨hmove, -, hsame⟩ := move_eq_error hm
      exact ⟨hmove, hsame⟩
    · exact ih entry hlater fault' hfault

/-- **The depth is the number of descents without that of the ascents that do not fail.** -/
theorem depth_tryMoves (cursor : Cursor) (moves : List Move) :
    (cursor.tryMoves moves).depth + cursor.ascents moves = cursor.depth + descents moves := by
  induction cursor, moves using moves_induction with
  | nil cursor => rfl
  | ok cursor m next moves hm ih =>
    have hdepth := move_depth hm
    have hascents : cursor.ascents (m :: moves) =
        next.ascents moves + if m = .ascend then 1 else 0 := by
      rw [ascents, record_cons_of_ok hm, List.countP_cons, ascents]
      by_cases hascend : m = .ascend
      · rw [if_pos hascend, if_pos (by rw [hascend]; rfl)]
      · rw [if_neg hascend, decide_eq_false hascend]
        rfl
    rw [tryMoves_cons, tryMove_eq_of_ok hm, hascents, descents, List.countP_cons, ← descents]
    omega
  | error cursor m fault moves hm ih =>
    obtain ⟨rfl, -, -⟩ := move_eq_error hm
    rw [tryMoves_cons, tryMove_eq_of_error hm, ascents, record_cons_of_error hm,
      List.countP_cons_of_neg Bool.false_ne_true, descents,
      List.countP_cons_of_neg Bool.false_ne_true]
    exact ih

end Moves

/-! ## Methods from their beginning -/

/-- What has become of a method, told from its moves. -/
structure Tallies (builder : ClassBuilder) (signature : String) (moves : List Move) : Prop where
  /-- No more ascents succeed than there are descents, and the depth is the difference. -/
  ascents_le : (builder.openMethod signature).ascents moves ≤ descents moves
  depth_eq : ((builder.openMethod signature).tryMoves moves).depth =
    descents moves - (builder.openMethod signature).ascents moves
  /-- One more ascent fails just if there is no difference, and then for one reason. -/
  ascend_iff : ∀ fault, ((builder.openMethod signature).tryMoves moves).ascend = .error fault ↔
    descents moves - (builder.openMethod signature).ascents moves = 0 ∧
      fault = .ascendPastRoot signature
  /-- All that fails are ascents. -/
  failed : ∀ entry ∈ (builder.openMethod signature).record moves, ∀ fault,
    entry.2 = .error fault → entry.1 = .ascend ∧ fault = .ascendPastRoot signature
  /-- Without them the cursor and its class are the same, -/
  state_eq : (builder.openMethod signature).tryMoves
    ((builder.openMethod signature).succeeding moves) =
      (builder.openMethod signature).tryMoves moves
  /-- and so is what the other moves report. -/
  record_eq : (builder.openMethod signature).record
    ((builder.openMethod signature).succeeding moves) =
      ((builder.openMethod signature).record moves).filter (·.2.isOk)
  /-- A close gives the method as it stands just if there is no difference, and else reports it. -/
  close_eq : ((builder.openMethod signature).tryMoves moves).close =
    if descents moves - (builder.openMethod signature).ascents moves = 0 then
      .ok { signature
            nodes := ((builder.openMethod signature).tryMoves moves).nodes
            tokens := ((builder.openMethod signature).tryMoves moves).tokens
            symbols := ((builder.openMethod signature).tryMoves moves).symbols }
    else .error (.unbalancedTraversal signature
      (descents moves - (builder.openMethod signature).ascents moves))
  /-- In either case the class has the methods that it had. -/
  methods_eq : ∀ slots, (Session.step
    ⟨.building ((builder.openMethod signature).tryMoves moves), slots⟩ .close).1.builder?.map
      ClassBuilder.methods = some builder.methods

/-- **Ascents that fail have no effect, and the balance of descents and ascents decides on a
close.** -/
theorem tallies_tryMoves (builder : ClassBuilder) (signature : String) (moves : List Move) :
    Tallies builder signature moves := by
  have hbalance := depth_tryMoves (builder.openMethod signature) moves
  have hsignature := signature_tryMoves (builder.openMethod signature) moves
  have hopened : (builder.openMethod signature).depth = 0 := rfl
  have hdepth : ((builder.openMethod signature).tryMoves moves).depth =
      descents moves - (builder.openMethod signature).ascents moves := by
    omega
  refine
    { ascents_le := by omega
      depth_eq := hdepth
      ascend_iff := fun fault => ?_
      failed := of_error_mem_record _ moves
      state_eq := tryMoves_succeeding _ moves
      record_eq := record_succeeding _ moves
      close_eq := ?_
      methods_eq := fun slots => ?_ }
  · rw [ascend_eq_error_iff, hdepth, hsignature, openMethod_signature]
  · rw [close, method, hdepth, hsignature, openMethod_signature]
  · show (Session.closeStep _ _).1.builder?.map ClassBuilder.methods = _
    rw [Session.closeStep_eq]
    exact congrArg some (methods_tryMoves (builder.openMethod signature) moves)

-- the first ascent is from the root, and so is the third
example : (ClassBuilder.openMethod ⟨"C", [], #[], {}⟩ "m:0").succeeding
    [.ascend, .descend .returnStatement, .ascend, .ascend] =
      [.descend .returnStatement, .ascend] := by
  decide +kernel

end Cursor

end CodeGraph

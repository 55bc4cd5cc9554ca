/-
# How a text is cut into sub-words

The fragments of a text are stretches of it, one behind the other, that hold all of its characters
but the underscores.  Between two characters that are no underscores one fragment ends and another
begins just if the second is a capital and the first is not (`Text.IsSegmentation`).  The sub-words
are the fragments, each lower-cased on its own, and an underscore between two texts keeps their
sub-words apart (`Text.subwords_segmented`).
-/
import Mathlib
import CodeGraph.Text.Subword

namespace CodeGraph.Text

/-! ## Stretches -/

/-- A stretch of a text: the positions from `start` on that come before `stop`. -/
structure Stretch where
  start : Nat
  stop : Nat

namespace Stretch

/-- The position lies in the stretch. -/
def Holds (stretch : Stretch) (i : Nat) : Prop := stretch.start ≤ i ∧ i < stretch.stop

/-- The characters of a text in the stretch. -/
def read (cs : List Char) (stretch : Stretch) : List Char :=
  (cs.take stretch.stop).drop stretch.start

/-- What comes behind a stretch does not matter. -/
theorem read_append {stretch : Stretch} {cs : List Char} (h : stretch.stop ≤ cs.length)
    (later : List Char) : read (cs ++ later) stretch = read cs stretch := by
  rw [read, List.take_append_of_le_length h, read]

/-- A stretch that goes on to the end is read with the last character. -/
theorem read_concat {start : Nat} {cs : List Char} (h : start ≤ cs.length) (c : Char) :
    read (cs ++ [c]) ⟨start, cs.length + 1⟩ = read cs ⟨start, cs.length⟩ ++ [c] := by
  simp only [read]
  rw [List.take_of_length_le (by rw [List.length_append]; exact Nat.le_refl _),
    List.take_length, List.drop_append_of_le_length h]

/-- The stretch of the last character is read as this character. -/
theorem read_single (cs : List Char) (c : Char) :
    read (cs ++ [c]) ⟨cs.length, cs.length + 1⟩ = [c] := by
  rw [read_concat (Nat.le_refl _), read, List.drop_eq_nil_of_le (List.length_take_le _ _),
    List.nil_append]

end Stretch

/-- The second of two neighbours begins a word: it is a capital behind a character that is none. -/
def StartsWord (b c : Char) : Prop := isUpper c = true ∧ isUpper b = false

/-- The stretches are the fragments of a text: they are not empty, come one behind the other and
hold all characters but the underscores, and behind another character one begins just at a word. -/
structure Cuts (cs : List Char) (stretches : List Stretch) : Prop where
  start_lt : ∀ stretch ∈ stretches, stretch.start < stretch.stop
  stop_le : ∀ stretch ∈ stretches, stretch.stop ≤ cs.length
  ordered : stretches.Pairwise fun before after => before.stop ≤ after.start
  holds_iff : ∀ i c, cs[i]? = some c → ((∃ stretch ∈ stretches, stretch.Holds i) ↔ c ≠ '_')
  start_iff : ∀ i b c, cs[i]? = some b → cs[i + 1]? = some c → b ≠ '_' → c ≠ '_' →
    ((∃ stretch ∈ stretches, stretch.start = i + 1) ↔ StartsWord b c)
  join_eq : stretches.flatMap (Stretch.read cs) = cs.filter (· ≠ '_')

/-- What is said of fragments, read off the text alone. -/
structure IsSegmentation (cs : List Char) (stretches : List Stretch) : Prop
    extends Cuts cs stretches where
  /-- A character other than an underscore lies in exactly one fragment. -/
  existsUnique : ∀ i c, cs[i]? = some c → c ≠ '_' →
    ∃! stretch, stretch ∈ stretches ∧ stretch.Holds i
  /-- Between neighbours that are no underscores one fragment ends and another begins just if the
  second neighbour begins a word. -/
  boundary_iff : ∀ i b c, cs[i]? = some b → cs[i + 1]? = some c → b ≠ '_' → c ≠ '_' →
    (((∃ stretch ∈ stretches, stretch.stop = i + 1) ∧
      ∃ stretch ∈ stretches, stretch.start = i + 1) ↔ StartsWord b c)

/-! ## One more character -/

namespace Cuts

variable {cs : List Char} {stretches : List Stretch} {c : Char}

theorem nil : Cuts [] [] where
  start_lt := fun _ h => absurd h List.not_mem_nil
  stop_le := fun _ h => absurd h List.not_mem_nil
  ordered := List.Pairwise.nil
  holds_iff := by
    intro i c hc
    cases hc
  start_iff := by
    intro i b c hb
    cases hb
  join_eq := rfl

/-- Stretches are read in the front of a text as they are in the whole. -/
theorem map_read_append (h : Cuts cs stretches) (later : List Char) :
    stretches.map (Stretch.read (cs ++ later)) = stretches.map (Stretch.read cs) :=
  List.map_congr_left fun stretch hmem => Stretch.read_append (h.stop_le stretch hmem) later

theorem flatMap_read_append (h : Cuts cs stretches) (later : List Char) :
    stretches.flatMap (Stretch.read (cs ++ later)) = stretches.flatMap (Stretch.read cs) := by
  rw [List.flatMap_def, List.flatMap_def, h.map_read_append]

theorem not_holds_length (h : Cuts cs stretches) :
    ¬ ∃ stretch ∈ stretches, stretch.Holds cs.length := by
  rintro ⟨stretch, hmem, -, hlt⟩
  exact absurd (h.stop_le stretch hmem) (Nat.not_le.mpr hlt)

theorem start_lt_length (h : Cuts cs stretches) {stretch : Stretch} (hmem : stretch ∈ stretches) :
    stretch.start < cs.length :=
  Nat.lt_of_lt_of_le (h.start_lt stretch hmem) (h.stop_le stretch hmem)

/-- A character of a longer text is one from before or the last one. -/
theorem getElem?_concat_cases {i : Nat} {b : Char} (h : (cs ++ [c])[i]? = some b) :
    (i < cs.length ∧ cs[i]? = some b) ∨ (i = cs.length ∧ b = c) := by
  rcases Nat.lt_or_ge i cs.length with hlt | hge
  · rw [List.getElem?_append_left hlt] at h
    exact Or.inl ⟨hlt, h⟩
  · obtain ⟨hbound, -⟩ := List.getElem?_eq_some_iff.mp h
    rw [List.length_append, List.length_singleton] at hbound
    obtain rfl : i = cs.length := by omega
    rw [List.getElem?_concat_length] at h
    exact Or.inr ⟨rfl, (Option.some.inj h).symm⟩

theorem getLast?_eq {i : Nat} {b : Char} (h : cs[i]? = some b) (hi : i + 1 = cs.length) :
    cs.getLast? = some b := by
  rw [List.getLast?_eq_getElem?, ← hi, Nat.add_sub_cancel, h]

/-- An underscore belongs to no fragment. -/
theorem skip (h : Cuts cs stretches) : Cuts (cs ++ ['_']) stretches where
  start_lt := h.start_lt
  stop_le := by
    intro stretch hmem
    rw [List.length_append]
    exact Nat.le_add_right_of_le (h.stop_le stretch hmem)
  ordered := h.ordered
  holds_iff := by
    intro i b hb
    rcases getElem?_concat_cases hb with ⟨-, hold⟩ | ⟨rfl, rfl⟩
    · exact h.holds_iff i b hold
    · exact iff_of_false h.not_holds_length fun hne => hne rfl
  start_iff := by
    intro i a b ha hb hane hbne
    rcases getElem?_concat_cases hb with ⟨hlt, hold⟩ | ⟨-, rfl⟩
    · rw [List.getElem?_append_left (by omega)] at ha
      exact h.start_iff i a b ha hold hane hbne
    · exact absurd rfl hbne
  join_eq := by
    rw [h.flatMap_read_append, List.filter_append, h.join_eq]
    exact (List.append_nil _).symm

/-- Any other character begins a fragment, if it begins a word or follows no such character. -/
theorem begin (h : Cuts cs stretches) (hc : c ≠ '_')
    (hstarts : ∀ b, cs.getLast? = some b → b ≠ '_' → StartsWord b c) :
    Cuts (cs ++ [c]) (stretches ++ [⟨cs.length, cs.length + 1⟩]) where
  start_lt := List.forall_mem_append.mpr
    ⟨h.start_lt, List.forall_mem_singleton.mpr (Nat.lt_succ_self _)⟩
  stop_le := by
    rw [List.length_append, List.length_singleton]
    exact List.forall_mem_append.mpr
      ⟨fun stretch hmem => Nat.le_succ_of_le (h.stop_le stretch hmem),
        List.forall_mem_singleton.mpr (Nat.le_refl _)⟩
  ordered := by
    refine List.pairwise_append.mpr ⟨h.ordered, List.pairwise_singleton _ _, ?_⟩
    intro before hbefore after hafter
    cases List.mem_singleton.mp hafter
    exact h.stop_le before hbefore
  holds_iff := by
    intro i b hb
    simp only [List.mem_append, List.mem_singleton, or_and_right, exists_or, exists_eq_left]
    rcases getElem?_concat_cases hb with ⟨hlt, hold⟩ | ⟨rfl, rfl⟩
    · rw [h.holds_iff i b hold, or_iff_left]
      exact fun hnew => absurd hnew.1 (Nat.not_le.mpr hlt)
    · exact iff_of_true (Or.inr ⟨Nat.le_refl _, Nat.lt_succ_self _⟩) hc
  start_iff := by
    intro i a b ha hb hane hbne
    simp only [List.mem_append, List.mem_singleton, or_and_right, exists_or, exists_eq_left]
    rcases getElem?_concat_cases hb with ⟨hlt, hold⟩ | ⟨heq, rfl⟩
    · rw [List.getElem?_append_left (by omega)] at ha
      rw [h.start_iff i a b ha hold hane hbne, or_iff_left]
      exact fun hnew => absurd hnew (Nat.ne_of_gt hlt)
    · rw [List.getElem?_append_left (by omega)] at ha
      exact iff_of_true (Or.inr heq.symm) (hstarts a (getLast?_eq ha heq) hane)
  join_eq := by
    rw [List.flatMap_append, h.flatMap_read_append, List.flatMap_singleton, Stretch.read_single,
      List.filter_append, h.join_eq, List.filter_singleton, decide_eq_true hc]
    rfl

/-- A character that begins no word goes on with the fragment of the one before it. -/
theorem extend {start : Nat} (h : Cuts cs (stretches ++ [⟨start, cs.length⟩])) (hc : c ≠ '_')
    (hstarts : ∀ b, cs.getLast? = some b → ¬ StartsWord b c) :
    Cuts (cs ++ [c]) (stretches ++ [⟨start, cs.length + 1⟩]) := by
  have hlast : (⟨start, cs.length⟩ : Stretch) ∈ stretches ++ [⟨start, cs.length⟩] :=
    List.mem_append_right _ List.mem_cons_self
  have hstart : start < cs.length := h.start_lt _ hlast
  have hmem : ∀ stretch ∈ stretches, stretch ∈ stretches ++ [⟨start, cs.length⟩] :=
    fun stretch hold => List.mem_append_left _ hold
  refine ⟨?_, ?_, ?_, ?_, ?_, ?_⟩
  · exact List.forall_mem_append.mpr ⟨fun stretch hold => h.start_lt stretch (hmem stretch hold),
      List.forall_mem_singleton.mpr (Nat.lt_succ_of_lt hstart)⟩
  · rw [List.length_append, List.length_singleton]
    exact List.forall_mem_append.mpr
      ⟨fun stretch hold => Nat.le_succ_of_le (h.stop_le stretch (hmem stretch hold)),
        List.forall_mem_singleton.mpr (Nat.le_refl _)⟩
  · obtain ⟨hold, -, hbetween⟩ := List.pairwise_append.mp h.ordered
    refine List.pairwise_append.mpr ⟨hold, List.pairwise_singleton _ _, ?_⟩
    intro before hbefore after hafter
    cases List.mem_singleton.mp hafter
    exact hbetween before hbefore ⟨start, cs.length⟩ List.mem_cons_self
  · intro i b hb
    rcases getElem?_concat_cases hb with ⟨hlt, hold⟩ | ⟨rfl, rfl⟩
    · have hsame : Stretch.Holds ⟨start, cs.length + 1⟩ i ↔ Stretch.Holds ⟨start, cs.length⟩ i :=
        and_congr_right fun _ => iff_of_true (Nat.lt_succ_of_lt hlt) hlt
      rw [← h.holds_iff i b hold]
      simp only [List.mem_append, List.mem_singleton, or_and_right, exists_or, exists_eq_left,
        hsame]
    · exact iff_of_true ⟨_, List.mem_append_right _ List.mem_cons_self, Nat.le_of_lt hstart,
        Nat.lt_succ_self _⟩ hc
  · intro i a b ha hb hane hbne
    rcases getElem?_concat_cases hb with ⟨hlt, hold⟩ | ⟨heq, rfl⟩
    · rw [List.getElem?_append_left (by omega)] at ha
      rw [← h.start_iff i a b ha hold hane hbne]
      simp only [List.mem_append, List.mem_singleton, or_and_right, exists_or, exists_eq_left]
    · rw [List.getElem?_append_left (by omega)] at ha
      refine iff_of_false ?_ (hstarts a (getLast?_eq ha heq))
      -- all fragments begin in front of the new character
      rintro ⟨stretch, hstretch, hat⟩
      rcases List.mem_append.mp hstretch with hold | hnew
      · exact Nat.ne_of_lt (h.start_lt_length (hmem stretch hold)) (hat.trans heq)
      · cases List.mem_singleton.mp hnew
        exact Nat.ne_of_lt hstart (hat.trans heq)
  · have hjoin := h.join_eq
    rw [List.flatMap_append, List.flatMap_singleton] at hjoin
    have hold : stretches.flatMap (Stretch.read (cs ++ [c])) =
        stretches.flatMap (Stretch.read cs) := by
      refine List.flatMap_congr fun stretch hold => ?_
      exact Stretch.read_append (h.stop_le stretch (hmem stretch hold)) [c]
    rw [List.flatMap_append, List.flatMap_singleton, hold,
      Stretch.read_concat (Nat.le_of_lt hstart), ← List.append_assoc, hjoin, List.filter_append,
      List.filter_singleton, decide_eq_true hc]
    rfl

/-- The fragment of the last character is the last one. -/
theorem exists_last (h : Cuts cs stretches) {b : Char} (hb : cs.getLast? = some b)
    (hne : b ≠ '_') : ∃ before start, stretches = before ++ [⟨start, cs.length⟩] := by
  rw [List.getLast?_eq_getElem?] at hb
  have hpos := (List.getElem?_eq_some_iff.mp hb).1
  obtain ⟨stretch, hmem, -, hstop⟩ := (h.holds_iff _ b hb).mpr hne
  have hle := h.stop_le stretch hmem
  obtain ⟨before, after, rfl⟩ := List.append_of_mem hmem
  have hnone : after = [] := by
    refine List.eq_nil_iff_forall_not_mem.mpr fun later hlater => ?_
    have hall : later ∈ before ++ stretch :: after :=
      List.mem_append_right _ (List.mem_cons_of_mem _ hlater)
    have hafter := (List.pairwise_cons.mp (List.pairwise_append.mp h.ordered).2.1).1 later hlater
    have hlt := h.start_lt_length hall
    omega
  subst hnone
  obtain ⟨start, stop⟩ := stretch
  obtain rfl : stop = cs.length := by
    dsimp only at hstop hle
    omega
  exact ⟨before, start, rfl⟩

/-- Of two fragments one ends before the other begins. -/
theorem stop_le_start (h : Cuts cs stretches) {stretch other : Stretch} (hmem : stretch ∈ stretches)
    (hother : other ∈ stretches) (hne : stretch ≠ other) :
    stretch.stop ≤ other.start ∨ other.stop ≤ stretch.start := by
  have : Std.Symm fun before after : Stretch =>
      before.stop ≤ after.start ∨ after.stop ≤ before.start := ⟨fun _ _ => Or.symm⟩
  have hpairs : stretches.Pairwise fun before after =>
      before.stop ≤ after.start ∨ after.stop ≤ before.start := h.ordered.imp Or.inl
  exact hpairs.forall hmem hother hne

/-- Stretches that are cut at every boundary are the segmentation. -/
theorem isSegmentation (h : Cuts cs stretches) : IsSegmentation cs stretches := by
  refine ⟨h, fun i c hc hne => ?_, fun i b c hb hc hbne hcne => ?_⟩
  · obtain ⟨stretch, hmem, hstart, hstop⟩ := (h.holds_iff i c hc).mpr hne
    refine ⟨stretch, ⟨hmem, hstart, hstop⟩, ?_⟩
    rintro other ⟨hother, hstart', hstop'⟩
    by_contra hdiff
    rcases h.stop_le_start hother hmem hdiff with hle | hle
    · omega
    · omega
  · rw [← h.start_iff i b c hb hc hbne hcne]
    refine ⟨And.right, fun hstart => ⟨?_, hstart⟩⟩
    -- the fragment of the first neighbour ends where that of the second begins
    obtain ⟨after, hafter, heq⟩ := hstart
    obtain ⟨before, hbefore, hle, hlt⟩ := (h.holds_iff i b hb).mpr hbne
    have hne : before ≠ after := by
      rintro rfl
      omega
    have hafterlt := h.start_lt after hafter
    refine ⟨before, hbefore, ?_⟩
    rcases h.stop_le_start hbefore hafter hne with hle' | hle'
    · omega
    · omega

end Cuts

/-! ## The cut of a text -/

namespace Cut

/-- The fragments so far, with the one at hand. -/
def view (cut : Cut) : List (List Char) := cut.flush.fragments.reverse

theorem flush_eq (cut : Cut) : cut.flush = ⟨cut.flush.fragments, [], cut.afterUpper⟩ := by
  obtain ⟨fragments, current, afterUpper⟩ := cut
  cases current <;> rfl

/-- A fragment that begins comes behind the others. -/
theorem view_begin (cut : Cut) (c : Char) (afterUpper : Bool) :
    view ⟨cut.flush.fragments, [c], afterUpper⟩ = cut.view ++ [[c]] :=
  List.reverse_cons

/-- A fragment that has begun is seen behind the others. -/
theorem view_extend {cut : Cut} (h : cut.current ≠ []) :
    cut.view = cut.fragments.reverse ++ [cut.current.reverse] := by
  obtain ⟨fragments, current, afterUpper⟩ := cut
  cases current with
  | nil => exact absurd rfl h
  | cons c current => exact List.reverse_cons

/-- An underscore ends the fragment and belongs to none. -/
theorem step_underscore (cut : Cut) : cut.step '_' = ⟨cut.flush.fragments, [], false⟩ := by
  rw [step, if_pos rfl, flush_eq]

/-- A character that is no underscore begins a fragment or goes on with the one at hand. -/
theorem step_eq (cut : Cut) {c : Char} (hc : c ≠ '_') :
    cut.step c = if (isUpper c && !cut.afterUpper) = true ∨ cut.current = [] then
      ⟨cut.flush.fragments, [c], isUpper c⟩
    else ⟨cut.fragments, c :: cut.current, isUpper c⟩ := by
  obtain ⟨fragments, current, afterUpper⟩ := cut
  rw [step, if_neg hc]
  dsimp only
  by_cases hbegins : (isUpper c && !afterUpper) = true
  · rw [if_pos hbegins, if_pos (Or.inl hbegins), flush_eq]
  · rw [if_neg hbegins]
    cases current with
    | nil => rw [if_pos (Or.inr rfl)]; rfl
    | cons d current => rw [if_neg (by rintro (h | h); exacts [hbegins h, nomatch h])]

/-- The cut of a text: its fragments so far are those of the text, and it knows what kind of
character came last. -/
structure Follows (cut : Cut) (cs : List Char) (stretches : List Stretch) : Prop where
  cuts : Cuts cs stretches
  view_eq : cut.view = stretches.map (Stretch.read cs)
  current_ne_iff : cut.current ≠ [] ↔ ∃ b, cs.getLast? = some b ∧ b ≠ '_'
  afterUpper_iff : cut.afterUpper = true ↔ ∃ b, cs.getLast? = some b ∧ b ≠ '_' ∧ isUpper b = true

namespace Follows

variable {cut : Cut} {cs : List Char} {stretches : List Stretch}

theorem nil : Follows {} [] [] where
  cuts := Cuts.nil
  view_eq := rfl
  current_ne_iff := iff_of_false (fun h => h rfl) nofun
  afterUpper_iff := iff_of_false nofun nofun

theorem skip (h : cut.Follows cs stretches) : (cut.step '_').Follows (cs ++ ['_']) stretches := by
  rw [step_underscore]
  refine ⟨h.cuts.skip, ?_, ?_, ?_⟩
  · rw [h.cuts.map_read_append, ← h.view_eq]
    rfl
  · rw [List.getLast?_concat]
    refine iff_of_false (fun hnil => hnil rfl) ?_
    rintro ⟨b, hb, hne⟩
    exact hne (Option.some.inj hb).symm
  · rw [List.getLast?_concat]
    refine iff_of_false nofun ?_
    rintro ⟨b, hb, hne, -⟩
    exact hne (Option.some.inj hb).symm

/-- What the cut knows when a character has been taken that is no underscore. -/
theorem of_concat {next : Cut} {c : Char} {grown : List Stretch} (hc : c ≠ '_')
    (hcuts : Cuts (cs ++ [c]) grown) (hview : next.view = grown.map (Stretch.read (cs ++ [c])))
    (hcurrent : next.current ≠ []) (hupper : next.afterUpper = isUpper c) :
    next.Follows (cs ++ [c]) grown := by
  refine ⟨hcuts, hview, ?_, ?_⟩
  · rw [List.getLast?_concat]
    exact iff_of_true hcurrent ⟨c, rfl, hc⟩
  · rw [List.getLast?_concat, hupper]
    refine ⟨fun hc' => ⟨c, rfl, hc, hc'⟩, ?_⟩
    rintro ⟨b, hb, -, hb'⟩
    rw [Option.some.inj hb]
    exact hb'

/-- **Each character keeps the fragments those of the text.** -/
theorem step (h : cut.Follows cs stretches) (c : Char) :
    ∃ grown, (cut.step c).Follows (cs ++ [c]) grown := by
  by_cases hc : c = '_'
  · subst hc
    exact ⟨stretches, h.skip⟩
  rw [step_eq cut hc]
  by_cases hbegins : (isUpper c && !cut.afterUpper) = true ∨ cut.current = []
  · rw [if_pos hbegins]
    refine ⟨_, of_concat hc (h.cuts.begin hc fun b hb hne => ?_) ?_ (List.cons_ne_nil _ _) rfl⟩
    · rcases hbegins with hbegins | hnil
      · rw [Bool.and_eq_true, Bool.not_eq_true', ← Bool.not_eq_true, h.afterUpper_iff] at hbegins
        exact ⟨hbegins.1, Bool.eq_false_iff.mpr fun hupper => hbegins.2 ⟨b, hb, hne, hupper⟩⟩
      · exact absurd hnil (h.current_ne_iff.mpr ⟨b, hb, hne⟩)
    · rw [view_begin, List.map_append, h.cuts.map_read_append, h.view_eq, List.map_singleton,
        Stretch.read_single]
  · rw [if_neg hbegins]
    obtain ⟨hupper, hcurrent⟩ := not_or.mp hbegins
    obtain ⟨b, hb, hne⟩ := h.current_ne_iff.mp hcurrent
    obtain ⟨before, start, rfl⟩ := h.cuts.exists_last hb hne
    have hview := h.view_eq
    rw [view_extend hcurrent, List.map_append] at hview
    obtain ⟨hfragments, hlast⟩ := List.append_inj' hview rfl
    refine ⟨before ++ [⟨start, cs.length + 1⟩],
      of_concat hc (h.cuts.extend hc fun a ha hstarts => ?_) ?_ (List.cons_ne_nil _ _) rfl⟩
    · obtain rfl : a = b := Option.some.inj (ha.symm.trans hb)
      refine hupper ?_
      rw [Bool.and_eq_true, Bool.not_eq_true', ← Bool.not_eq_true, h.afterUpper_iff]
      refine ⟨hstarts.1, ?_⟩
      rintro ⟨a', ha', -, hupper'⟩
      rw [Option.some.inj (ha'.symm.trans ha), hstarts.2] at hupper'
      cases hupper'
    · have hstart : start ≤ cs.length :=
        Nat.le_of_lt (h.cuts.start_lt_length (List.mem_append_right _ List.mem_cons_self))
      have hold : before.map (Stretch.read (cs ++ [c])) = before.map (Stretch.read cs) :=
        List.map_congr_left fun stretch hmem =>
          Stretch.read_append (h.cuts.stop_le stretch (List.mem_append_left _ hmem)) [c]
      rw [view_extend (List.cons_ne_nil _ _), List.map_append, hold, hfragments, List.map_singleton,
        Stretch.read_concat hstart, ← List.singleton_inj.mp hlast, List.reverse_cons]

end Follows

end Cut

/-- **The fragments of a text are a segmentation of it.** -/
theorem exists_isSegmentation (cs : List Char) :
    ∃ stretches, IsSegmentation cs stretches ∧ fragments cs = stretches.map (Stretch.read cs) := by
  have hfollows : ∃ stretches, (cs.foldl Cut.step {}).Follows cs stretches := by
    induction cs using List.reverseRecOn with
    | nil => exact ⟨[], Cut.Follows.nil⟩
    | append_singleton cs c ih =>
      obtain ⟨stretches, h⟩ := ih
      rw [List.foldl_append]
      exact h.step c
  obtain ⟨stretches, h⟩ := hfollows
  exact ⟨stretches, h.cuts.isSegmentation, h.view_eq⟩

/-! ## Texts with an underscore in between -/

namespace Cut

/-- Fragments that were finished earlier stay in front. -/
theorem flush_later (cut : Cut) (earlier : List (List Char)) :
    flush { cut with fragments := cut.fragments ++ earlier } =
      { cut.flush with fragments := cut.flush.fragments ++ earlier } := by
  obtain ⟨fragments, current, afterUpper⟩ := cut
  cases current <;> rfl

/-- A step leaves the fragments before it alone. -/
theorem step_later (cut : Cut) (earlier : List (List Char)) (c : Char) :
    step { cut with fragments := cut.fragments ++ earlier } c =
      { cut.step c with fragments := (cut.step c).fragments ++ earlier } := by
  rw [step, step, flush_later]
  split
  · rfl
  · dsimp only
    split <;> rfl

/-- Any number of characters leave the fragments before them alone. -/
theorem foldl_step_later (cs : List Char) (cut : Cut) (earlier : List (List Char)) :
    cs.foldl step { cut with fragments := cut.fragments ++ earlier } =
      { cs.foldl step cut with fragments := (cs.foldl step cut).fragments ++ earlier } := by
  induction cs generalizing cut with
  | nil => rfl
  | cons c cs ih =>
    rw [List.foldl_cons, List.foldl_cons, step_later, ih]

/-- Behind an underscore the cutting begins anew. -/
theorem foldl_step_behind (cs : List Char) (earlier : List (List Char)) :
    cs.foldl step ⟨earlier, [], false⟩ =
      { cs.foldl step {} with fragments := (cs.foldl step {}).fragments ++ earlier } :=
  foldl_step_later cs {} earlier

end Cut

/-- **An underscore between two texts keeps their fragments apart.** -/
theorem fragments_append_cons (u v : List Char) :
    fragments (u ++ '_' :: v) = fragments u ++ fragments v := by
  rw [fragments, List.foldl_append, List.foldl_cons, Cut.step_underscore, Cut.foldl_step_behind,
    Cut.flush_later, List.reverse_append]
  rfl

/-! ## Sub-words -/

/-- The sub-words of a text of two characters or more are its fragments in lower case. -/
theorem subwords_eq {text : String} (h : 2 ≤ text.toList.length) :
    subwords text = (fragments text.toList).map fun fragment => String.ofList (lower fragment) := by
  rw [subwords]
  split
  · next hnil =>
    rw [hnil] at h
    exact absurd h (by decide)
  · next c hsingle =>
    rw [hsingle] at h
    exact absurd h (Nat.lt_irrefl 1)
  · rfl

/-- **Sub-words are the fragments of a text.**  Any text of two characters or more has fragments,
and its sub-words are these, each lower-cased on its own.  So two such texts with an underscore in
between have the sub-words of the first and then those of the second. -/
theorem subwords_segmented :
    (∀ text : String, 2 ≤ text.length → ∃ stretches, IsSegmentation text.toList stretches ∧
      subwords text = stretches.map fun stretch =>
        String.ofList (lower (stretch.read text.toList))) ∧
    ∀ first second : String, 2 ≤ first.length → 2 ≤ second.length →
      subwords (first ++ "_" ++ second) = subwords first ++ subwords second := by
  refine ⟨fun text h => ?_, fun first second hfirst hsecond => ?_⟩
  · rw [← String.length_toList] at h
    obtain ⟨stretches, hsegmentation, heq⟩ := exists_isSegmentation text.toList
    exact ⟨stretches, hsegmentation, by rw [subwords_eq h, heq, List.map_map]; rfl⟩
  · rw [← String.length_toList] at hfirst hsecond
    have hlist : (first ++ "_" ++ second).toList = first.toList ++ '_' :: second.toList := by
      rw [String.toList_append, String.toList_append, List.append_assoc]
      rfl
    have hlength : 2 ≤ (first ++ "_" ++ second).toList.length := by
      rw [hlist, List.length_append]
      exact Nat.le_add_right_of_le hfirst
    rw [subwords_eq hlength, subwords_eq hfirst, subwords_eq hsecond, hlist,
      fragments_append_cons, List.map_append]

-- underscores at both ends, a run of capitals, and a sigma that ends its fragment
/-- A capital sigma begins a fragment like any capital, and alone it is not lowered to a final
one. -/
theorem subwords_segmented_sigma :
    (2 ≤ "_getHTTPΣίσυφοΣ__".length ∧ ∃ stretches,
      IsSegmentation "_getHTTPΣίσυφοΣ__".toList stretches ∧
      subwords "_getHTTPΣίσυφοΣ__" = stretches.map fun stretch =>
        String.ofList (lower (stretch.read "_getHTTPΣίσυφοΣ__".toList))) ∧
    2 ≤ "Of".length ∧ subwords ("_getHTTPΣίσυφοΣ__" ++ "_" ++ "Of") =
      ["get", "httpσίσυφο", "σ", "of"] := by
  have hfirst : 2 ≤ "_getHTTPΣίσυφοΣ__".length := by decide +kernel
  have hsecond : 2 ≤ "Of".length := by decide +kernel
  refine ⟨⟨hfirst, subwords_segmented.1 _ hfirst⟩, hsecond, ?_⟩
  rw [subwords_segmented.2 _ _ hfirst hsecond]
  decide +kernel

end CodeGraph.Text

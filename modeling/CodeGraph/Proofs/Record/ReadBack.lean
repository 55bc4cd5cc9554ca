/-
# Reading written records

A record whose positions have 64 bits and whose codes have 8 is read back from its written form
(`TrainingRecord.Fits.ofJson_eq`), whatever its labels and names are.  The written form is one line:
there is no line end in it (`TrainingRecord.newline_not_mem_toJson`).
-/
import CodeGraph.Proofs.Json.OneLine
import CodeGraph.Record.Format

namespace CodeGraph

open Json

/-! ## Records that can be read -/

/-- The positions of the edge have 64 bits, and its code has 8. -/
structure RecordEdge.Fits (edge : RecordEdge) : Prop where
  source : edge.source < UInt64.size
  target : edge.target < UInt64.size
  code : edge.code < UInt8.size

/-- All positions in the record have 64 bits, and all codes have 8. -/
structure TrainingRecord.Fits (record : TrainingRecord) : Prop where
  edges : ∀ edge ∈ record.edges, edge.Fits
  bugKind : record.bugKind < UInt8.size
  errorLocation : record.errorLocation < UInt64.size
  repairTargets : ∀ position ∈ record.repairTargets, position < UInt64.size
  repairCandidates : ∀ position ∈ record.repairCandidates, position < UInt64.size

theorem reads_position {n : Nat} (hn : n < UInt64.size) : Reads readPosition (encodeNat n) n :=
  reads_natural "usize" hn (Nat.le_refl _)

theorem reads_code {n : Nat} (hn : n < UInt8.size) : Reads readCode (encodeNat n) n :=
  reads_natural "u8" hn (by decide)

/-! ## Edges -/

/-- **A written edge is read as itself.** -/
theorem RecordEdge.reads {edge : RecordEdge} (h : edge.Fits) :
    Reads edgeShape.readTuple edge.toJson edge := by
  obtain ⟨source, target, code, name⟩ := edge
  have hfills : Shape.Fills edgeShape.blank edgeShape.fields
      [encodeNat source, encodeNat target, encodeNat code, encodeText name]
      ⟨some source, some target, some code, some name⟩ := by
    refine .cons ((reads_position h.source).map fun source =>
      (⟨some source, none, none, none⟩ : EdgeDraft)) ?_
    refine .cons ((reads_position h.target).map fun target =>
      (⟨some source, some target, none, none⟩ : EdgeDraft)) ?_
    refine .cons ((reads_code h.code).map fun code =>
      (⟨some source, some target, some code, none⟩ : EdgeDraft)) ?_
    refine .cons ((reads_text name).map fun name =>
      (⟨some source, some target, some code, some name⟩ : EdgeDraft)) ?_
    exact .nil _
  exact Shape.reads_tuple hfills rfl

/-! ## Records -/

/-- The members of a written record. -/
def TrainingRecord.members (record : TrainingRecord) : List (String × List Char) := [
  ("source_tokens", encodeList (record.sourceTokens.map encodeText)),
  ("edges", encodeList (record.edges.map RecordEdge.toJson)),
  ("has_bug", encodeBool record.hasBug),
  ("bug_kind", encodeNat record.bugKind),
  ("bug_kind_name", encodeText record.bugKindName),
  ("error_location", encodeNat record.errorLocation),
  ("repair_targets", encodeList (record.repairTargets.map encodeNat)),
  ("repair_candidates", encodeList (record.repairCandidates.map encodeNat))]

/-- A record is written as an object with its members. -/
theorem TrainingRecord.toJson_eq (record : TrainingRecord) :
    record.toJson = encodeObject record.members := rfl

/-- The draft of which a record is made. -/
def TrainingRecord.draft (record : TrainingRecord) : RecordDraft :=
  ⟨some record.sourceTokens, some record.edges, some record.hasBug, some record.bugKind,
    some record.bugKindName, some record.errorLocation, some record.repairTargets,
    some record.repairCandidates⟩

/-- The members of a written record are read into its draft. -/
theorem TrainingRecord.drafts {record : TrainingRecord} (h : record.Fits) {fuel : Nat}
    (hlist : ∀ key text, (key, text) ∈ record.members → text.length ≤ fuel) :
    Shape.Drafts (recordShape fuel) (recordShape fuel).blank record.members record.draft := by
  obtain ⟨sourceTokens, edges, hasBug, bugKind, bugKindName, errorLocation, repairTargets,
    repairCandidates⟩ := record
  have hsourceTokens : Reads (readList fuel readText) (encodeList (sourceTokens.map encodeText))
      sourceTokens :=
    reads_list_map (fun text _ => reads_text text) (hlist "source_tokens" _ (by simp [members]))
  have hedges : Reads (readList fuel edgeShape.readTuple)
      (encodeList (edges.map RecordEdge.toJson)) edges :=
    reads_list_map (fun edge hedge => RecordEdge.reads (h.edges edge hedge))
      (hlist "edges" _ (by simp [members]))
  have hrepairTargets : Reads (readList fuel readPosition)
      (encodeList (repairTargets.map encodeNat)) repairTargets :=
    reads_list_map (fun position hposition => reads_position (h.repairTargets position hposition))
      (hlist "repair_targets" _ (by simp [members]))
  have hrepairCandidates : Reads (readList fuel readPosition)
      (encodeList (repairCandidates.map encodeNat)) repairCandidates :=
    reads_list_map
      (fun position hposition => reads_position (h.repairCandidates position hposition))
      (hlist "repair_candidates" _ (by simp [members]))
  -- the members stand in the order of the draft, so each fills in the next field
  refine .cons rfl rfl (hsourceTokens.map fun sourceTokens =>
    (⟨some sourceTokens, none, none, none, none, none, none, none⟩ : RecordDraft)) ?_
  refine .cons rfl rfl (hedges.map fun edges =>
    (⟨some sourceTokens, some edges, none, none, none, none, none, none⟩ : RecordDraft)) ?_
  refine .cons rfl rfl ((reads_bool hasBug).map fun hasBug =>
    (⟨some sourceTokens, some edges, some hasBug, none, none, none, none, none⟩ :
      RecordDraft)) ?_
  refine .cons rfl rfl ((reads_code h.bugKind).map fun bugKind =>
    (⟨some sourceTokens, some edges, some hasBug, some bugKind, none, none, none, none⟩ :
      RecordDraft)) ?_
  refine .cons rfl rfl ((reads_text bugKindName).map fun bugKindName =>
    (⟨some sourceTokens, some edges, some hasBug, some bugKind, some bugKindName, none, none,
      none⟩ : RecordDraft)) ?_
  refine .cons rfl rfl ((reads_position h.errorLocation).map fun errorLocation =>
    (⟨some sourceTokens, some edges, some hasBug, some bugKind, some bugKindName,
      some errorLocation, none, none⟩ : RecordDraft)) ?_
  refine .cons rfl rfl (hrepairTargets.map fun repairTargets =>
    (⟨some sourceTokens, some edges, some hasBug, some bugKind, some bugKindName,
      some errorLocation, some repairTargets, none⟩ : RecordDraft)) ?_
  refine .cons rfl rfl (hrepairCandidates.map fun repairCandidates =>
    (⟨some sourceTokens, some edges, some hasBug, some bugKind, some bugKindName,
      some errorLocation, some repairTargets, some repairCandidates⟩ : RecordDraft)) ?_
  exact .nil _

/-- **A written record is read as itself.** -/
theorem TrainingRecord.reads {record : TrainingRecord} (h : record.Fits) {fuel : Nat}
    (hfuel : record.toJson.length ≤ fuel) :
    Reads ((recordShape fuel).read fuel) record.toJson record := by
  rw [toJson_eq] at hfuel ⊢
  -- a list in the record is shorter than the record
  have hlist : ∀ key text, (key, text) ∈ record.members → text.length ≤ fuel := by
    intro key text hmem
    have hlt := length_lt_length_encodeObject_of_mem hmem
    omega
  exact Shape.reads_object (drafts h hlist) rfl ((length_lt_length_encodeObject _).trans_le hfuel)

/-- **A record survives being written and read**, if its positions and codes fit. -/
theorem TrainingRecord.Fits.ofJson_eq {record : TrainingRecord} (h : record.Fits) :
    TrainingRecord.ofJson record.toJson = .ok record :=
  readWhole_of_reads (TrainingRecord.reads h (length_le_enoughFuel _))

/-! ## One line -/

/-- There is no line end in the text of an edge. -/
theorem RecordEdge.newline_not_mem_toJson (edge : RecordEdge) : '\n' ∉ edge.toJson := by
  refine newline_not_mem_encodeList ?_
  intro text htext
  simp only [List.mem_cons, List.not_mem_nil, or_false] at htext
  rcases htext with rfl | rfl | rfl | rfl
  · exact newline_not_mem_encodeNat _
  · exact newline_not_mem_encodeNat _
  · exact newline_not_mem_encodeNat _
  · exact newline_not_mem_encodeText _

/-- **A written record is on one line.** -/
theorem TrainingRecord.newline_not_mem_toJson (record : TrainingRecord) :
    '\n' ∉ record.toJson := by
  rw [toJson_eq]
  refine newline_not_mem_encodeObject ?_
  intro key text hmem
  simp only [members, List.mem_cons, Prod.mk.injEq, List.not_mem_nil, or_false] at hmem
  rcases hmem with ⟨-, rfl⟩ | ⟨-, rfl⟩ | ⟨-, rfl⟩ | ⟨-, rfl⟩ | ⟨-, rfl⟩ | ⟨-, rfl⟩ | ⟨-, rfl⟩ |
    ⟨-, rfl⟩
  · exact newline_not_mem_encodeList_map newline_not_mem_encodeText _
  · exact newline_not_mem_encodeList_map RecordEdge.newline_not_mem_toJson _
  · exact newline_not_mem_encodeBool _
  · exact newline_not_mem_encodeNat _
  · exact newline_not_mem_encodeText _
  · exact newline_not_mem_encodeNat _
  · exact newline_not_mem_encodeList_map newline_not_mem_encodeNat _
  · exact newline_not_mem_encodeList_map newline_not_mem_encodeNat _

end CodeGraph

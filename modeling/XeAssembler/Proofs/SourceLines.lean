import XeAssembler.Proofs.LayoutWalk

set_option autoImplicit false

namespace XeAssembler

def Line.behind (count : Nat) (line : Line) : Line :=
  { line with index := line.index + count }

def Source.statementsBehind (count : Nat) (source : Source) : List (Line × Statement) :=
  source.statements.map fun entry => (entry.1.behind count, entry.2)

theorem Source.statements_ofRows_append (path : String) (rows more : List String) :
    (Source.ofRows path (rows ++ more)).statements =
      (Source.ofRows path rows).statements ++
        (Source.ofRows path more).statementsBehind rows.length := by
  have renumbered : more.mapIdx (fun index => Line.ofText (index + rows.length)) =
      (more.mapIdx Line.ofText).map (Line.behind rows.length) := by
    apply List.ext_getElem?
    intro index
    simp only [List.getElem?_map, List.getElem?_mapIdx, Option.map_map]
    rfl
  simp only [statementsBehind, statements, ofRows, List.mapIdx_append, renumbered,
    List.filterMap_append, List.filterMap_map, List.map_filterMap]
  congr 1
  apply List.filterMap_congr
  intro line _
  rw [Function.comp_apply, Option.map_map]
  rfl

theorem Source.texts_ofRows (path : String) (rows : List String) :
    (Source.ofRows path rows).lines.map Line.text = rows := by
  apply List.ext_getElem?
  intro index
  simp [ofRows, Line.ofText, Function.comp_def]

theorem Source.lines_ascending (path : String) (rows : List String) :
    (Source.ofRows path rows).lines.Pairwise fun line next => line.index < next.index := by
  rw [List.pairwise_iff_getElem]
  intro i j earlier later order
  simpa [Source.ofRows, Line.ofText] using order

theorem Source.index_of_line_at {path : String} {rows : List String} {index : Nat} {line : Line}
    (there : (Source.ofRows path rows).lines[index]? = some line) : line.index = index := by
  simp only [ofRows, List.getElem?_mapIdx, Option.map_eq_some_iff] at there
  obtain ⟨text, -, rfl⟩ := there
  rfl

theorem Source.line_at_of_mem {path : String} {rows : List String} {line : Line}
    (listed : line ∈ (ofRows path rows).lines) :
    (ofRows path rows).lines[line.index]? = some line := by
  obtain ⟨index, there⟩ := List.getElem?_of_mem listed
  rwa [index_of_line_at there]

theorem Source.mem_statements_iff (source : Source) (entry : Line × Statement) :
    entry ∈ source.statements ↔ entry.1 ∈ source.lines ∧ entry.1.statement? = some entry.2 := by
  obtain ⟨line, statement⟩ := entry
  simp only [statements, List.mem_filterMap, Option.map_eq_some_iff]
  constructor
  · rintro ⟨other, listed, carried, carries, ⟨⟩⟩
    exact ⟨listed, carries⟩
  · rintro ⟨listed, carries⟩
    exact ⟨line, listed, statement, carries, rfl⟩

theorem Source.line_of_mem_statements {source : Source} {entry : Line × Statement}
    (carried : entry ∈ source.statements) : entry.1 ∈ source.lines :=
  ((mem_statements_iff ..).mp carried).1

theorem Source.line_at_of_mem_statements {path : String} {rows : List String}
    {entry : Line × Statement} (carried : entry ∈ (ofRows path rows).statements) :
    (ofRows path rows).lines[entry.1.index]? = some entry.1 :=
  line_at_of_mem (line_of_mem_statements carried)

theorem Source.index_of_last_line (path : String) (rows : List String) :
    ((Source.ofRows path rows).lines.getLast?.map Line.index).getD 0 =
      (Source.ofRows path rows).lines.length - 1 := by
  simp only [ofRows, List.getLast?_eq_getElem?, List.getElem?_mapIdx, List.length_mapIdx]
  cases rows with
  | nil => rfl
  | cons row rows =>
    rw [List.getElem?_eq_getElem (by simp)]
    rfl

theorem Source.statements_ascending (path : String) (rows : List String) :
    (Source.ofRows path rows).statements.Pairwise
      fun entry next => entry.1.index < next.1.index := by
  apply List.Pairwise.filterMap _ _ (lines_ascending path rows)
  intro line next order entry found entry' found'
  obtain ⟨statement, -, rfl⟩ := Option.map_eq_some_iff.mp found
  obtain ⟨statement', -, rfl⟩ := Option.map_eq_some_iff.mp found'
  exact order

section Visits

variable {path : String} {rows : List String} {walk : Walk}
  (walked : Layout.walk {} (Source.ofRows path rows).statements = .ok walk)

include walked

theorem Layout.line_at_of_visit {visit : Visit} (visited : visit ∈ walk.visits) :
    (Source.ofRows path rows).lines[visit.line.index]? = some visit.line :=
  Source.line_at_of_mem_statements (entry_of_mem_walk walked visited)

theorem Layout.visits_ascending :
    walk.visits.Pairwise fun visit next => visit.line.index < next.line.index := by
  have ascending := Source.statements_ascending path rows
  rwa [← entries_of_walk walked, List.pairwise_map] at ascending

theorem Layout.lines_nodup : (walk.visits.map fun visit => visit.line.index).Nodup := by
  rw [List.Nodup, List.pairwise_map]
  exact (visits_ascending walked).imp Nat.ne_of_lt

theorem Layout.visit_eq_of_line_eq {visit other : Visit} (visited : visit ∈ walk.visits)
    (otherVisited : other ∈ walk.visits) (same : other.line.index = visit.line.index) :
    other = visit :=
  List.inj_on_of_nodup_map (lines_nodup walked) otherVisited visited same

end Visits

end XeAssembler

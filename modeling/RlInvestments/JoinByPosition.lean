import Mathlib.Data.List.Basic
import Mathlib.Data.List.Forall2

/-!
# Lists joined by position

Rows are read one after the other. Each of them adds any number of values to a first
list, one to a second and one to a third, and at the end the lists are joined by position.
The same loops run on values that carry the row they were taken from, so what was joined
with what can be read off the result. All of it comes from one row exactly if the rows
with a first value come first and have one each.
-/

namespace RlInvestments.JoinByPosition

set_option autoImplicit false

variable {Row First Raw Second Third Joined Fault : Type}

/-- What is read from a row, and what is made of it. -/
structure Reading (Row First Raw Second Third Joined Fault : Type) where
  firsts : Row → List First
  raw : Row → Raw
  second : Raw → Except Fault Second
  third : Row → Except Fault Third
  join : First → Second → Third → Joined
  /-- The fault of a position outside a list. -/
  missing : Fault

structure Grown (First Raw Third : Type) where
  firsts : List First
  raws : List Raw
  thirds : List Third

def valueAt {Value : Type} (missing : Fault) (list : List Value) (i : Nat) : Except Fault Value :=
  match list[i]? with
  | none => .error missing
  | some value => .ok value

namespace Reading

variable (reading : Reading Row First Raw Second Third Joined Fault)

def addRow (grown : Grown First Raw Third) (row : Row) : Except Fault (Grown First Raw Third) := do
  let third ← reading.third row
  .ok ⟨grown.firsts ++ reading.firsts row, grown.raws ++ [reading.raw row], grown.thirds ++ [third]⟩

/-- The loop of the joining, on `i` and the first values that are left. -/
def joinFrom (seconds : List Second) (thirds : List Third) :
    Nat → List First → Except Fault (List Joined)
  | _, [] => .ok []
  | i, first :: rest => do
      let second ← valueAt reading.missing seconds i
      let third ← valueAt reading.missing thirds i
      let joined ← joinFrom seconds thirds (i + 1) rest
      .ok (reading.join first second third :: joined)

def joinRows (rows : List Row) : Except Fault (List Joined) := do
  let grown ← rows.foldlM reading.addRow ⟨[], [], []⟩
  let seconds ← grown.raws.mapM reading.second
  reading.joinFrom seconds grown.thirds 0 grown.firsts

/-- The same reading on values that carry the position of their row. -/
def labelled : Reading (Row × Nat) (First × Nat) (Raw × Nat) (Second × Nat) (Third × Nat)
    (Joined × Nat × Nat × Nat) Fault where
  firsts := fun (row, k) => (reading.firsts row).map fun first => (first, k)
  raw := fun (row, k) => (reading.raw row, k)
  second := fun (raw, k) => (reading.second raw).map fun second => (second, k)
  third := fun (row, k) => (reading.third row).map fun third => (third, k)
  join := fun (first, i) (second, j) (third, k) => (reading.join first second third, i, j, k)
  missing := reading.missing

/-- The rows whose values were joined are one row. -/
def OneRow (rows : Nat × Nat × Nat) : Prop :=
  rows.1 = rows.2.1 ∧ rows.2.1 = rows.2.2

def FromOneRow (rows : List Row) : Prop :=
  ∃ joined, reading.labelled.joinRows rows.zipIdx = .ok joined ∧ ∀ item ∈ joined, OneRow item.2

end Reading

def OneFirstEach (firsts : Row → List First) (rows : List Row) : Prop :=
  ∃ filled unfilled, rows = filled ++ unfilled ∧ (∀ row ∈ filled, (firsts row).length = 1) ∧
    ∀ row ∈ unfilled, firsts row = []

theorem map_m_step {Value : Type} (read : Row → Except Fault Value) (row : Row) (rows : List Row) :
    (row :: rows).mapM read =
      read row >>= fun value => (rows.mapM read).map fun values => value :: values := by
  rw [List.mapM_cons]
  cases read row with
  | error fault => rfl
  | ok value => cases rows.mapM read <;> rfl

theorem bind_completes_iff {Value Result : Type} {first : Except Fault Value}
    {next : Value → Except Fault Result} :
    (∃ result, (first >>= next) = .ok result) ↔
      ∃ value, first = .ok value ∧ ∃ result, next value = .ok result := by
  cases first with
  | error fault =>
      constructor
      · exact fun ⟨_, completes⟩ => nomatch completes
      · exact fun ⟨_, completes, _⟩ => nomatch completes
  | ok value =>
      constructor
      · exact fun completes => ⟨value, rfl, completes⟩
      · intro ⟨_, same, completes⟩
        cases same
        exact completes

theorem map_m_completes_iff {Value : Type} {read : Row → Except Fault Value} {rows : List Row} :
    (∃ values, rows.mapM read = .ok values) ↔ ∀ row ∈ rows, ∃ value, read row = .ok value := by
  induction rows with
  | nil => exact ⟨fun _ row member => absurd member List.not_mem_nil, fun _ => ⟨[], rfl⟩⟩
  | cons row rows induction =>
      rw [List.forall_mem_cons, ← induction, List.mapM_cons, bind_completes_iff]
      constructor
      · intro ⟨value, first, completes⟩
        obtain ⟨values, rest, -⟩ := bind_completes_iff.mp completes
        exact ⟨⟨value, first⟩, values, rest⟩
      · intro ⟨⟨value, first⟩, values, rest⟩
        exact ⟨value, first, bind_completes_iff.mpr ⟨values, rest, value :: values, rfl⟩⟩

theorem map_m_preserves {Value Observed : Type} {read : Row → Except Fault Value}
    {row : Row → Observed} {result : Value → Observed}
    (agrees : ∀ member value, read member = .ok value → result value = row member)
    {rows : List Row} {values : List Value} (completes : rows.mapM read = .ok values) :
    values.map result = rows.map row := by
  induction rows generalizing values with
  | nil =>
      cases completes
      rfl
  | cons member rows induction =>
      rw [map_m_step] at completes
      cases first : read member with
      | error fault =>
          rw [first] at completes
          exact nomatch completes
      | ok value =>
          cases rest : rows.mapM read with
          | error fault =>
              rw [first, rest] at completes
              exact nomatch completes
          | ok others =>
              rw [first, rest] at completes
              cases completes
              rw [List.map_cons, List.map_cons, agrees member value first, induction rest]

theorem except_map_ok {Value Value' : Type} {result : Value → Value'} {read : Except Fault Value}
    {value' : Value'} (completes : read.map result = .ok value') :
    ∃ value, read = .ok value ∧ result value = value' := by
  cases read with
  | error fault => exact nomatch completes
  | ok value => exact ⟨value, rfl, Except.ok.inj completes⟩

/-- A traversal that completes has read every member. -/
theorem map_m_each {Value : Type} {read : Row → Except Fault Value} {rows : List Row}
    {values : List Value} (completes : rows.mapM read = .ok values) :
    List.Forall₂ (fun row value => read row = .ok value) rows values := by
  induction rows generalizing values with
  | nil =>
      cases completes
      exact .nil
  | cons row rows induction =>
      rw [map_m_step] at completes
      cases first : read row with
      | error fault =>
          rw [first] at completes
          cases completes
      | ok value =>
          rw [first] at completes
          obtain ⟨others, rest, rfl⟩ := except_map_ok completes
          exact .cons first (induction rest)

theorem map_m_source {Value : Type} {read : Row → Except Fault Value} {rows : List Row}
    {values : List Value} (completes : rows.mapM read = .ok values) :
    ∀ value ∈ values, ∃ row ∈ rows, read row = .ok value := by
  have each := map_m_each completes
  clear completes
  induction each with
  | nil => exact nofun
  | cons first _ induction =>
      rw [List.forall_mem_cons]
      constructor
      · exact ⟨_, List.mem_cons_self .., first⟩
      · intro value member
        have ⟨row, inRows, reads⟩ := induction value member
        exact ⟨row, List.mem_cons_of_mem _ inRows, reads⟩

theorem map_m_natural {Row' Value Value' : Type} {read : Row → Except Fault Value}
    {read' : Row' → Except Fault Value'} {change : Row' → Row} {result : Value' → Value}
    (agrees : ∀ row, read (change row) = (read' row).map result) (rows : List Row') :
    (rows.map change).mapM read = (rows.mapM read').map (List.map result) := by
  induction rows with
  | nil => rfl
  | cons row rows induction =>
      rw [List.map_cons, map_m_step, map_m_step, induction, agrees]
      cases read' row with
      | error fault => rfl
      | ok value => cases rows.mapM read' <;> rfl

namespace Reading

variable (reading : Reading Row First Raw Second Third Joined Fault)

theorem fold_rows (rows : List Row) (grown : Grown First Raw Third) :
    rows.foldlM reading.addRow grown =
      (rows.mapM reading.third).map fun thirds =>
        ⟨grown.firsts ++ rows.flatMap reading.firsts, grown.raws ++ rows.map reading.raw,
          grown.thirds ++ thirds⟩ := by
  induction rows generalizing grown with
  | nil =>
      simp only [List.flatMap_nil, List.map_nil, List.append_nil, List.mapM_nil, List.foldlM_nil,
        Pure.pure, Except.pure, Except.map]
  | cons row rows induction =>
      rw [List.foldlM_cons, map_m_step, addRow]
      cases reading.third row with
      | error fault => rfl
      | ok third =>
          simp only [Bind.bind, Except.bind, induction, List.flatMap_cons, List.map_cons,
            List.append_assoc, List.singleton_append]
          cases rows.mapM reading.third <;> rfl

theorem join_rows_eq (rows : List Row) :
    reading.joinRows rows =
      rows.mapM reading.third >>= fun thirds =>
        (rows.map reading.raw).mapM reading.second >>= fun seconds =>
          reading.joinFrom seconds thirds 0 (rows.flatMap reading.firsts) := by
  rw [joinRows, fold_rows]
  cases rows.mapM reading.third <;> rfl

theorem value_at_map {Value Value' : Type} (missing : Fault) (result : Value' → Value)
    (values : List Value') (i : Nat) :
    valueAt missing (values.map result) i = (valueAt missing values i).map result := by
  rw [valueAt, valueAt, List.getElem?_map]
  cases values[i]? <;> rfl

theorem label_second :
    ∀ raw, reading.second (Prod.fst raw) = (reading.labelled.second raw).map Prod.fst := by
  rintro ⟨raw, k⟩
  change _ = ((reading.second raw).map fun second => (second, k)).map Prod.fst
  cases reading.second raw <;> rfl

theorem label_third :
    ∀ row, reading.third (Prod.fst row) = (reading.labelled.third row).map Prod.fst := by
  rintro ⟨row, k⟩
  change _ = ((reading.third row).map fun third => (third, k)).map Prod.fst
  cases reading.third row <;> rfl

theorem label_firsts (rows : List (Row × Nat)) :
    (rows.flatMap reading.labelled.firsts).map Prod.fst =
      (rows.map Prod.fst).flatMap reading.firsts := by
  rw [List.map_flatMap, List.flatMap_map]
  refine List.flatMap_congr fun row _ => ?_
  exact (List.map_map ..).trans (List.map_id _)

theorem join_from_erase (seconds : List (Second × Nat)) (thirds : List (Third × Nat)) (i : Nat)
    (firsts : List (First × Nat)) :
    reading.joinFrom (seconds.map Prod.fst) (thirds.map Prod.fst) i (firsts.map Prod.fst) =
      (reading.labelled.joinFrom seconds thirds i firsts).map (List.map Prod.fst) := by
  induction firsts generalizing i with
  | nil => rfl
  | cons first firsts induction =>
      rw [List.map_cons, joinFrom, joinFrom, value_at_map, value_at_map, induction]
      change _ = (valueAt reading.missing seconds i >>= _).map _
      cases valueAt reading.missing seconds i with
      | error fault => rfl
      | ok second =>
          change _ = (valueAt reading.missing thirds i >>= _).map _
          cases valueAt reading.missing thirds i with
          | error fault => rfl
          | ok third => cases reading.labelled.joinFrom seconds thirds (i + 1) firsts <;> rfl

theorem thirds_erase (rows : List Row) :
    rows.mapM reading.third =
      (rows.zipIdx.mapM reading.labelled.third).map (List.map Prod.fst) := by
  rw [← map_m_natural reading.label_third, List.zipIdx_map_fst]

theorem seconds_erase (rows : List Row) :
    (rows.map reading.raw).mapM reading.second =
      ((rows.zipIdx.map reading.labelled.raw).mapM reading.labelled.second).map
        (List.map Prod.fst) := by
  have raws : (rows.zipIdx.map reading.labelled.raw).map Prod.fst =
      (rows.zipIdx.map Prod.fst).map reading.raw := by
    rw [List.map_map, List.map_map]
    rfl
  rw [← map_m_natural reading.label_second, raws, List.zipIdx_map_fst]

theorem join_rows_erase (rows : List Row) :
    reading.joinRows rows =
      (reading.labelled.joinRows rows.zipIdx).map (List.map Prod.fst) := by
  have firsts := reading.label_firsts rows.zipIdx
  rw [List.zipIdx_map_fst] at firsts
  rw [join_rows_eq, join_rows_eq, thirds_erase, seconds_erase, ← firsts]
  cases rows.zipIdx.mapM reading.labelled.third with
  | error fault => rfl
  | ok thirds =>
      cases (rows.zipIdx.map reading.labelled.raw).mapM reading.labelled.second with
      | error fault => rfl
      | ok seconds => exact reading.join_from_erase seconds thirds 0 _

theorem value_at_label {Value : Type} (missing : Fault) {values : List (Value × Nat)} {n i : Nat}
    (labels : values.map Prod.snd = List.range n) (below : i < n) :
    ∃ value, valueAt missing values i = .ok (value, i) := by
  have inside : i < values.length := by
    rw [← List.length_map (f := Prod.snd), labels, List.length_range]
    exact below
  have label : values[i].2 = i := by
    rw [← List.getElem_map Prod.snd (h := by rw [List.length_map]; exact inside)]
    simp only [labels, List.getElem_range]
  refine ⟨values[i].1, ?_⟩
  rw [valueAt, List.getElem?_eq_getElem inside]
  exact congrArg Except.ok (Prod.ext rfl label)

theorem join_from_inside {seconds : List Second} {thirds : List Third} {i : Nat} {second : Second}
    {third : Third} (atSecond : valueAt reading.missing seconds i = .ok second)
    (atThird : valueAt reading.missing thirds i = .ok third) (first : First)
    (firsts : List First) :
    reading.joinFrom seconds thirds i (first :: firsts) =
      (reading.joinFrom seconds thirds (i + 1) firsts).map fun joined =>
        reading.join first second third :: joined := by
  rw [joinFrom, atSecond, atThird]
  cases reading.joinFrom seconds thirds (i + 1) firsts <;> rfl

theorem join_from_outside {seconds : List Second} {i : Nat} (outside : seconds.length ≤ i)
    (thirds : List Third) (first : First) (firsts : List First) :
    reading.joinFrom seconds thirds i (first :: firsts) = .error reading.missing := by
  rw [joinFrom, valueAt, List.getElem?_eq_none outside]
  rfl

/-- The joined values are of one row exactly if the labels of the first values go up from `i`. -/
theorem join_from_one_row_iff {n : Nat} {seconds : List (Second × Nat)}
    {thirds : List (Third × Nat)} (secondLabels : seconds.map Prod.snd = List.range n)
    (thirdLabels : thirds.map Prod.snd = List.range n) (i : Nat) {firsts : List (First × Nat)}
    (below : ∀ first ∈ firsts, first.2 < n) :
    (∃ joined, reading.labelled.joinFrom seconds thirds i firsts = .ok joined ∧
        ∀ item ∈ joined, OneRow item.2) ↔
      firsts.map Prod.snd = List.range' i firsts.length := by
  induction firsts generalizing i with
  | nil => exact ⟨fun _ => rfl, fun _ => ⟨[], rfl, fun _ member => absurd member List.not_mem_nil⟩⟩
  | cons first firsts induction =>
      have ⟨here, later⟩ := List.forall_mem_cons.mp below
      rw [List.map_cons, List.length_cons, List.range'_succ, List.cons.injEq,
        ← induction (i + 1) later]
      by_cases inside : i < n
      · obtain ⟨second, atSecond⟩ := value_at_label reading.missing secondLabels inside
        obtain ⟨third, atThird⟩ := value_at_label reading.missing thirdLabels inside
        rw [reading.labelled.join_from_inside atSecond atThird]
        cases reading.labelled.joinFrom seconds thirds (i + 1) firsts with
        | error fault =>
            constructor
            · exact fun ⟨_, completes, _⟩ => nomatch completes
            · exact fun ⟨_, _, completes, _⟩ => nomatch completes
        | ok joined =>
            constructor
            · intro ⟨_, completes, same⟩
              cases completes
              have ⟨head, tail⟩ := List.forall_mem_cons.mp same
              exact ⟨head.1, joined, rfl, tail⟩
            · intro ⟨label, _, completes, same⟩
              cases completes
              exact ⟨_, rfl, List.forall_mem_cons.mpr ⟨⟨label, rfl⟩, same⟩⟩
      · have outside : seconds.length ≤ i := by
          rw [← List.length_map (f := Prod.snd), secondLabels, List.length_range]
          exact Nat.le_of_not_lt inside
        rw [reading.labelled.join_from_outside outside]
        constructor
        · exact fun ⟨_, completes, _⟩ => nomatch completes
        · exact fun ⟨label, _⟩ => absurd (label ▸ here) inside

end Reading

variable {firsts : Row → List First}

theorem one_first_each_none {row : Row} (none : firsts row = []) (rows : List Row) :
    OneFirstEach firsts (row :: rows) ↔ ∀ later ∈ rows, firsts later = [] := by
  constructor
  · intro ⟨filled, unfilled, same, one, empty⟩
    cases filled with
    | nil =>
        rw [List.nil_append] at same
        exact fun later member => empty later (same ▸ List.mem_cons_of_mem row member)
    | cons head filled =>
        obtain rfl := (List.cons.inj same).1
        have filledOnce := one row (List.mem_cons_self ..)
        rw [none] at filledOnce
        exact nomatch filledOnce
  · intro empty
    exact ⟨[], row :: rows, rfl, fun _ member => absurd member List.not_mem_nil,
      List.forall_mem_cons.mpr ⟨none, empty⟩⟩

theorem one_first_each_some {row : Row} (some : firsts row ≠ []) (rows : List Row) :
    OneFirstEach firsts (row :: rows) ↔ (firsts row).length = 1 ∧ OneFirstEach firsts rows := by
  constructor
  · intro ⟨filled, unfilled, same, one, empty⟩
    cases filled with
    | nil =>
        rw [List.nil_append] at same
        exact absurd (empty row (same ▸ List.mem_cons_self ..)) some
    | cons head filled =>
        obtain ⟨rfl, rfl⟩ := List.cons.inj same
        have ⟨here, later⟩ := List.forall_mem_cons.mp one
        exact ⟨here, filled, unfilled, rfl, later, empty⟩
  · intro ⟨here, filled, unfilled, same, later, empty⟩
    exact ⟨row :: filled, unfilled, by rw [same, List.cons_append],
      List.forall_mem_cons.mpr ⟨here, later⟩, empty⟩

/-- The label of each first value of the rows from `k` on. -/
def labelsFrom (firsts : Row → List First) (k : Nat) (rows : List Row) : List Nat :=
  (rows.zipIdx k).flatMap fun (row, k) => List.replicate (firsts row).length k

theorem labels_from_cons (firsts : Row → List First) (k : Nat) (row : Row) (rows : List Row) :
    labelsFrom firsts k (row :: rows) =
      List.replicate (firsts row).length k ++ labelsFrom firsts (k + 1) rows := by
  rw [labelsFrom, List.zipIdx_cons, List.flatMap_cons, labelsFrom]

theorem labels_from_between {k label : Nat} {rows : List Row}
    (member : label ∈ labelsFrom firsts k rows) : k ≤ label ∧ label < k + rows.length := by
  obtain ⟨⟨row, j⟩, memberRows, memberLabels⟩ := List.mem_flatMap.mp member
  rw [List.eq_of_mem_replicate memberLabels]
  have ⟨above, below, _⟩ := List.mem_zipIdx memberRows
  exact ⟨above, below⟩

theorem labels_from_empty_iff {k : Nat} {rows : List Row} :
    labelsFrom firsts k rows = [] ↔ ∀ row ∈ rows, firsts row = [] := by
  induction rows generalizing k with
  | nil => exact ⟨fun _ row member => absurd member List.not_mem_nil, fun _ => rfl⟩
  | cons row rows induction =>
      rw [labels_from_cons, List.append_eq_nil_iff, List.forall_mem_cons, induction,
        List.replicate_eq_nil_iff, List.length_eq_zero_iff]

theorem labels_from_range_iff (k : Nat) (rows : List Row) :
    labelsFrom firsts k rows = List.range' k (labelsFrom firsts k rows).length ↔
      OneFirstEach firsts rows := by
  induction rows generalizing k with
  | nil => exact ⟨fun _ => ⟨[], [], rfl, nofun, nofun⟩, fun _ => rfl⟩
  | cons row rows induction =>
      cases named : firsts row with
      | nil =>
          rw [one_first_each_none named, labels_from_cons, named,
            ← labels_from_empty_iff (k := k + 1)]
          change labelsFrom firsts (k + 1) rows =
            List.range' k (labelsFrom firsts (k + 1) rows).length ↔ _
          cases rest : labelsFrom firsts (k + 1) rows with
          | nil => exact ⟨fun _ => rfl, fun _ => rfl⟩
          | cons label labels =>
              have above := labels_from_between (rest ▸ List.mem_cons_self .. :
                label ∈ labelsFrom firsts (k + 1) rows)
              rw [List.length_cons, List.range'_succ, List.cons.injEq]
              constructor
              · intro ⟨same, _⟩
                omega
              · exact fun absent => nomatch absent
      | cons first others =>
          have some : firsts row ≠ [] := fun none => nomatch named.symm.trans none
          rw [one_first_each_some some, labels_from_cons, named]
          cases others with
          | nil =>
              change k :: labelsFrom firsts (k + 1) rows =
                List.range' k ((labelsFrom firsts (k + 1) rows).length + 1) ↔ _
              rw [List.range'_succ, List.cons.injEq, induction (k + 1)]
              exact ⟨fun ⟨_, rest⟩ => ⟨rfl, rest⟩, fun ⟨_, rest⟩ => ⟨rfl, rest⟩⟩
          | cons second others =>
              -- Two first values of one row have the same label.
              change k :: k :: (List.replicate others.length k ++ labelsFrom firsts (k + 1) rows) =
                List.range' k (_ + 1 + 1) ↔ _
              rw [List.range'_succ, List.range'_succ, List.cons.injEq, List.cons.injEq]
              constructor
              · intro ⟨_, same, _⟩
                omega
              · intro ⟨one, _⟩
                exact nomatch one

namespace Reading

variable (reading : Reading Row First Raw Second Third Joined Fault)

theorem labelled_firsts_labels (rows : List Row) :
    (rows.zipIdx.flatMap reading.labelled.firsts).map Prod.snd =
      labelsFrom reading.firsts 0 rows := by
  rw [List.map_flatMap, labelsFrom]
  refine List.flatMap_congr fun (row, k) _ => ?_
  change ((reading.firsts row).map fun first => (first, k)).map Prod.snd = _
  rw [List.map_map]
  exact List.map_const

theorem zip_idx_labels (rows : List Row) :
    rows.zipIdx.map Prod.snd = List.range rows.length :=
  (List.zipIdx_map_snd 0 rows).trans List.range_eq_range'.symm

theorem third_labels {rows : List Row} {thirds : List (Third × Nat)}
    (completes : rows.zipIdx.mapM reading.labelled.third = .ok thirds) :
    thirds.map Prod.snd = List.range rows.length := by
  have labels : thirds.map Prod.snd = rows.zipIdx.map Prod.snd := by
    refine map_m_preserves (fun ⟨row, k⟩ third reads => ?_) completes
    obtain ⟨value, _, rfl⟩ := except_map_ok reads
    rfl
  rw [labels, zip_idx_labels]

theorem second_labels {rows : List Row} {seconds : List (Second × Nat)}
    (completes : (rows.zipIdx.map reading.labelled.raw).mapM reading.labelled.second =
      .ok seconds) :
    seconds.map Prod.snd = List.range rows.length := by
  have labels : seconds.map Prod.snd = (rows.zipIdx.map reading.labelled.raw).map Prod.snd := by
    refine map_m_preserves (fun ⟨raw, k⟩ second reads => ?_) completes
    obtain ⟨value, _, rfl⟩ := except_map_ok reads
    rfl
  rw [labels, List.map_map, ← zip_idx_labels]
  rfl

/-- What is joined comes from one row exactly if every row can be read, and the rows with a
first value come first and have one each. -/
theorem from_one_row_iff (rows : List Row) :
    reading.FromOneRow rows ↔
      (∀ row ∈ rows, ∃ third, reading.third row = .ok third) ∧
      (∀ row ∈ rows, ∃ second, reading.second (reading.raw row) = .ok second) ∧
      OneFirstEach reading.firsts rows := by
  have raws : (∀ row ∈ rows, ∃ second, reading.second (reading.raw row) = .ok second) ↔
      ∃ seconds, (rows.map reading.raw).mapM reading.second = .ok seconds := by
    rw [map_m_completes_iff, List.forall_mem_map]
  rw [raws, ← map_m_completes_iff, thirds_erase, seconds_erase, FromOneRow, join_rows_eq]
  cases thirdsRead : rows.zipIdx.mapM reading.labelled.third with
  | error fault =>
      constructor
      · exact fun ⟨_, completes, _⟩ => nomatch completes
      · exact fun ⟨⟨_, completes⟩, _⟩ => nomatch completes
  | ok thirds =>
      cases secondsRead : (rows.zipIdx.map reading.labelled.raw).mapM reading.labelled.second with
      | error fault =>
          constructor
          · exact fun ⟨_, completes, _⟩ => nomatch completes
          · exact fun ⟨_, ⟨_, completes⟩, _⟩ => nomatch completes
      | ok seconds =>
          have labels := reading.labelled_firsts_labels rows
          have below : ∀ first ∈ rows.zipIdx.flatMap reading.labelled.firsts,
              first.2 < rows.length := by
            intro first member
            have label : first.2 ∈ labelsFrom reading.firsts 0 rows :=
              labels ▸ List.mem_map_of_mem member
            have between := labels_from_between label
            omega
          have joins := reading.join_from_one_row_iff (reading.second_labels secondsRead)
            (reading.third_labels thirdsRead) 0 below
          rw [← List.length_map (f := Prod.snd), labels, labels_from_range_iff] at joins
          constructor
          · exact fun completes => ⟨⟨_, rfl⟩, ⟨_, rfl⟩, joins.mp completes⟩
          · exact fun ⟨_, _, oneEach⟩ => joins.mpr oneEach

def OfRow (row : Row) (joined : Joined) : Prop :=
  ∃ first second third, reading.firsts row = [first] ∧
    reading.second (reading.raw row) = .ok second ∧ reading.third row = .ok third ∧
    joined = reading.join first second third

/-- Every part of what is joined was read from some row. -/
theorem join_from_parts {firsts : List First} {seconds : List Second} {thirds : List Third}
    {i : Nat} {joined : List Joined}
    (joins : reading.joinFrom seconds thirds i firsts = .ok joined) :
    ∀ item ∈ joined, ∃ first ∈ firsts, ∃ second ∈ seconds, ∃ third ∈ thirds,
      item = reading.join first second third := by
  induction firsts generalizing i joined with
  | nil =>
      cases joins
      exact nofun
  | cons first firsts induction =>
      rw [joinFrom, valueAt, valueAt] at joins
      cases atSecond : seconds[i]? with
      | none =>
          rw [atSecond] at joins
          cases joins
      | some second =>
          cases atThird : thirds[i]? with
          | none =>
              rw [atSecond, atThird] at joins
              cases joins
          | some third =>
              cases rest : reading.joinFrom seconds thirds (i + 1) firsts with
              | error fault =>
                  rw [atSecond, atThird, rest] at joins
                  cases joins
              | ok others =>
                  rw [atSecond, atThird, rest] at joins
                  cases joins
                  rw [List.forall_mem_cons]
                  constructor
                  · exact ⟨first, List.mem_cons_self .., second, List.mem_of_getElem? atSecond,
                      third, List.mem_of_getElem? atThird, rfl⟩
                  · intro item member
                    have ⟨later, inFirsts, parts⟩ := induction rest item member
                    exact ⟨later, List.mem_cons_of_mem _ inFirsts, parts⟩

/-- Where the rows have one first value each, the joining goes along with them. -/
theorem join_from_of_rows {filled unfilled : List Row} {seconds : List Second}
    {thirds : List Third} {i : Nat} {joined : List Joined}
    (one : ∀ row ∈ filled, (reading.firsts row).length = 1)
    (secondOf : List.Forall₂ (fun row second => reading.second (reading.raw row) = .ok second)
      (filled ++ unfilled) (seconds.drop i))
    (thirdOf : List.Forall₂ (fun row third => reading.third row = .ok third)
      (filled ++ unfilled) (thirds.drop i))
    (joins : reading.joinFrom seconds thirds i (filled.flatMap reading.firsts) = .ok joined) :
    List.Forall₂ reading.OfRow filled joined := by
  induction filled generalizing i joined with
  | nil =>
      cases joins
      exact .nil
  | cons row filled induction =>
      have ⟨oneHere, oneLater⟩ := List.forall_mem_cons.mp one
      have ⟨first, only⟩ := List.length_eq_one_iff.mp oneHere
      have ⟨second, laterSeconds, readSecond, restSeconds, atSecond⟩ :=
        List.forall₂_cons_left_iff.mp secondOf
      have ⟨third, laterThirds, readThird, restThirds, atThird⟩ :=
        List.forall₂_cons_left_iff.mp thirdOf
      have secondHere : valueAt reading.missing seconds i = .ok second := by
        rw [valueAt, ← List.head?_drop, atSecond]
        rfl
      have thirdHere : valueAt reading.missing thirds i = .ok third := by
        rw [valueAt, ← List.head?_drop, atThird]
        rfl
      rw [List.flatMap_cons, only, List.singleton_append,
        reading.join_from_inside secondHere thirdHere] at joins
      obtain ⟨rest, joinsRest, rfl⟩ := except_map_ok joins
      have nextSeconds : laterSeconds = seconds.drop (i + 1) := by
        rw [← List.tail_drop, atSecond, List.tail_cons]
      have nextThirds : laterThirds = thirds.drop (i + 1) := by
        rw [← List.tail_drop, atThird, List.tail_cons]
      apply List.Forall₂.cons
      · exact ⟨first, second, third, only, readSecond, readThird, rfl⟩
      · exact induction oneLater (nextSeconds ▸ restSeconds) (nextThirds ▸ restThirds) joinsRest

theorem join_rows_of_rows {filled unfilled : List Row} {joined : List Joined}
    (one : ∀ row ∈ filled, (reading.firsts row).length = 1)
    (none : ∀ row ∈ unfilled, reading.firsts row = [])
    (joins : reading.joinRows (filled ++ unfilled) = .ok joined) :
    List.Forall₂ reading.OfRow filled joined := by
  have firsts : (filled ++ unfilled).flatMap reading.firsts = filled.flatMap reading.firsts := by
    rw [List.flatMap_append, List.flatMap_eq_nil_iff.mpr none, List.append_nil]
  rw [join_rows_eq, firsts] at joins
  cases thirdsRead : (filled ++ unfilled).mapM reading.third with
  | error fault =>
      rw [thirdsRead] at joins
      cases joins
  | ok thirds =>
      rw [thirdsRead] at joins
      cases secondsRead : ((filled ++ unfilled).map reading.raw).mapM reading.second with
      | error fault =>
          rw [secondsRead] at joins
          cases joins
      | ok seconds =>
          rw [secondsRead] at joins
          have secondOf := List.forall₂_map_left_iff.mp (map_m_each secondsRead)
          exact reading.join_from_of_rows one secondOf (map_m_each thirdsRead) joins

theorem join_rows_second {rows : List Row} {joined : List Joined}
    (joins : reading.joinRows rows = .ok joined) :
    ∀ item ∈ joined, ∃ row ∈ rows, ∃ first second third,
      reading.second (reading.raw row) = .ok second ∧ item = reading.join first second third := by
  rw [join_rows_eq] at joins
  cases thirdsRead : rows.mapM reading.third with
  | error fault =>
      rw [thirdsRead] at joins
      cases joins
  | ok thirds =>
      rw [thirdsRead] at joins
      cases secondsRead : (rows.map reading.raw).mapM reading.second with
      | error fault =>
          rw [secondsRead] at joins
          cases joins
      | ok seconds =>
          rw [secondsRead] at joins
          intro item member
          have ⟨first, _, second, inSeconds, third, _, parts⟩ :=
            reading.join_from_parts joins item member
          have ⟨raw, inRaws, reads⟩ := map_m_source secondsRead second inSeconds
          have ⟨row, inRows, same⟩ := List.mem_map.mp inRaws
          exact ⟨row, inRows, first, second, third, same ▸ reads, parts⟩

end Reading

end RlInvestments.JoinByPosition

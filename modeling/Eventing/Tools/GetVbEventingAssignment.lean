import Eventing.Producer.Depcfg

/-! # The vbucket assignment report

The tool get_vb_eventing_assignment reads the rows of the eventing view, one row a vbucket
blob: its vbucket, its current owner and worker, and the node that asks for it. It groups the
vbuckets by current owner and worker and by requesting node, and prints each group sorted.

The main result, `getVbEventingAssignment_describes`, says what the report shows in terms of
the rows alone: each owner and requesting node once, the vbuckets of exactly its rows, and one
worker entry more than the rows give, with an empty id and no vbuckets, under an owner whose
first row has no worker.

## Implementation notes

The input is the object json.Unmarshal builds from the view's answer; the fetch, and log.Fatal
on a failed fetch or decode, come before it. A JSON object inside it is the list of the entries
of the map the decoder builds, whose keys are distinct, so List.lookup reads it. A failed type
assertion or an index out of range panics: none. A range loop over a Go map visits the keys in
an order Go leaves open; the report takes the map's entry order, and what is proved of it holds
in every order. strings.Split with the one-byte separator "_" splits the string's characters at
each "_".
-/

namespace Eventing

namespace JsonValue

/-- val.([]interface{}). -/
def asArray : JsonValue → Option (List JsonValue)
  | array elems => some elems
  | _ => none

/-- val.(map[string]interface{}). -/
def asObject : JsonValue → Option (List (String × JsonValue))
  | object fields => some fields
  | _ => none

end JsonValue

namespace Tools

/-! ## strconv.Atoi -/

/-- math.MaxUint64. -/
def maxUint64 : Nat := 2 ^ 64 - 1

/-- The digit loop of strconv.ParseUint(s, 10, 64): none at the first byte that is not a
digit, and maxUint64, with a range error, as soon as the value overflows (the loop's two
overflow tests, in unbounded arithmetic). -/
def parseUintDigits : List Char → Nat → Option Nat
  | [], n => some n
  | c :: cs, n =>
    if c.isDigit then
      if maxUint64 < n * 10 + digitVal c then some maxUint64
      else parseUintDigits cs (n * 10 + digitVal c)
    else none

/-- strconv.ParseUint(s, 10, 0) on a 64-bit platform: none on a syntax error. -/
def parseUint (s : List Char) : Option Nat :=
  if s = [] then none else parseUintDigits s 0

/-- The value strconv.ParseInt(s, 10, 0) returns on a 64-bit platform: 0 on a syntax error,
the value clamped to the int64 range on a range error. -/
def parseInt (s : List Char) : Int :=
  let (neg, rest) := match s with
    | '+' :: cs => (false, cs)
    | '-' :: cs => (true, cs)
    | cs => (false, cs)
  match parseUint rest with
  | none => 0
  | some un => if neg then -((min un (2 ^ 63) : Nat) : Int) else ((min un (2 ^ 63 - 1) : Nat) : Int)

/-- The value strconv.Atoi returns; the tool drops its error. A string of 1 to 18 bytes takes
the fast path, whose digits cannot overflow; a longer one goes through ParseInt. -/
def atoi (s : String) : Int :=
  if 0 < s.utf8ByteSize ∧ s.utf8ByteSize < 19 then
    let (neg, rest) := match s.toList with
      | '-' :: cs => (true, cs)
      | '+' :: cs => (false, cs)
      | cs => (false, cs)
    if rest = [] then 0
    else match rest.foldlM (fun n c => if c.isDigit then some (n * 10 + digitVal c) else none) 0 with
      | none => 0
      | some n => if neg then -(n : Int) else n
  else parseInt s.toList

/-- sort.Ints. -/
def sortInts (l : List Int) : List Int := l.mergeSort fun a b => decide (a ≤ b)

/-! ## The loop over the rows -/

/-- What the loop reads of one row. -/
structure ViewRow where
  vbucket : Int
  currentOwner : String
  workerId : String
  newOwner : String
  deriving DecidableEq, Repr

/-- The loop body up to the map updates: the vbucket is the fourth "_"-separated part of the
row's id, the current owner and worker the key's two strings, the new owner the value. -/
def parseRow (row : JsonValue) : Option ViewRow := do
  let row ← row.asObject
  let id ← (row.lookup "id").bind JsonValue.asString
  let part ← (id.toList.splitOn '_')[3]?
  let viewKey ← (row.lookup "key").bind JsonValue.asArray
  let currentOwner ← viewKey[0]?.bind JsonValue.asString
  let workerId ← viewKey[1]?.bind JsonValue.asString
  let newOwner ← (row.lookup "value").bind JsonValue.asString
  return ⟨atoi ⟨part⟩, currentOwner, workerId, newOwner⟩

/-- The two maps the loop fills. -/
structure VbMaps where
  vbucketEventingNodeMap : GoMap String (GoMap String (List Int))
  vbucketRequestingNodesMap : GoMap String (List Int)

/-- The map updates of the loop body for one row. -/
def addRow (m : VbMaps) (r : ViewRow) : VbMaps :=
  let nodeMap : GoMap String (GoMap String (List Int)) :=
    if r.currentOwner ∉ m.vbucketEventingNodeMap ∧ r.currentOwner ≠ "" then
      m.vbucketEventingNodeMap.insert r.currentOwner ((∅ : GoMap String (List Int)).insert r.workerId [])
    else m.vbucketEventingNodeMap
  let requestingMap : GoMap String (List Int) :=
    if r.newOwner ∉ m.vbucketRequestingNodesMap ∧ r.newOwner ≠ "" then
      m.vbucketRequestingNodesMap.insert r.newOwner [] else m.vbucketRequestingNodesMap
  let nodeMap : GoMap String (GoMap String (List Int)) :=
    if r.currentOwner ≠ "" ∧ r.workerId ≠ "" then
      nodeMap.insert r.currentOwner ((nodeMap.index r.currentOwner).push r.workerId r.vbucket)
    else nodeMap
  { vbucketEventingNodeMap := nodeMap
    vbucketRequestingNodesMap :=
      if r.newOwner ≠ "" then requestingMap.push r.newOwner r.vbucket else requestingMap }

/-- What the two print loops show: each current owner with each of its workers' sorted
vbuckets, and each requesting node with its sorted vbuckets. A printed len is the length of
the list printed after it. -/
structure Report where
  currOwner : List (String × List (String × List Int))
  requestingOwner : List (String × List Int)

/-- A range loop over m that prints f of each value. -/
def rangeEntries {V W : Type} (f : V → W) (m : GoMap String V) : List (String × W) :=
  m.entries.map fun e => (e.1, f e.2)

/-- The print loops, which sort each list before printing it. -/
def report (m : VbMaps) : Report :=
  ⟨rangeEntries (rangeEntries sortInts) m.vbucketEventingNodeMap,
    rangeEntries sortInts m.vbucketRequestingNodesMap⟩

/-- main after the decode: nothing is printed when data has no "rows" array. -/
def getVbEventingAssignment (data : GoMap String JsonValue) : Option (Option Report) :=
  match (data.lookup "rows").bind JsonValue.asArray with
  | none => some none
  | some rows =>
    (rows.foldlM (fun m row => (parseRow row).map (addRow m)) ⟨∅, ∅⟩).map fun m => some (report m)

/-! ## What the report shows -/

/-- The vbuckets of the rows whose current owner is o and worker is w, in row order. -/
def ownedVbs (rs : List ViewRow) (o w : String) : List Int :=
  (rs.filter fun r => r.currentOwner = o ∧ r.workerId = w).map ViewRow.vbucket

/-- The vbuckets of the rows whose new owner is n, in row order. -/
def requestedVbs (rs : List ViewRow) (n : String) : List Int :=
  (rs.filter fun r => r.newOwner = n).map ViewRow.vbucket

theorem ownedVbs_cons (r : ViewRow) (rs : List ViewRow) (o w : String) :
    ownedVbs (r :: rs) o w =
      (if r.currentOwner = o ∧ w = r.workerId then [r.vbucket] else []) ++ ownedVbs rs o w := by
  by_cases hc : r.currentOwner = o <;> by_cases hww : w = r.workerId <;>
    simp [ownedVbs, List.filter_cons, hc, hww, @eq_comm _ r.workerId w]

theorem requestedVbs_cons (r : ViewRow) (rs : List ViewRow) (n : String) :
    requestedVbs (r :: rs) n = (if r.newOwner = n then [r.vbucket] else []) ++ requestedVbs rs n := by
  by_cases hr : r.newOwner = n <;> simp [requestedVbs, List.filter_cons, hr]

/-- What a report of the rows rs shows: every owner and requesting node once; under an owner,
its workers and the worker of its first row, each once; and each list, the sorted vbuckets of
its rows, save the empty-named worker's, which stays empty. -/
structure Report.Describes (p : Report) (rs : List ViewRow) : Prop where
  owners_nodup : (p.currOwner.map Prod.fst).Nodup
  mem_owners : ∀ o, o ∈ p.currOwner.map Prod.fst ↔ o ≠ "" ∧ ∃ r ∈ rs, r.currentOwner = o
  workers_nodup : ∀ o ws, (o, ws) ∈ p.currOwner → (ws.map Prod.fst).Nodup
  mem_workers : ∀ o ws, (o, ws) ∈ p.currOwner → ∀ w, w ∈ ws.map Prod.fst ↔
    (w ≠ "" ∧ ∃ r ∈ rs, r.currentOwner = o ∧ r.workerId = w) ∨
      (rs.find? fun r => r.currentOwner = o).map ViewRow.workerId = some w
  owned : ∀ o ws, (o, ws) ∈ p.currOwner → ∀ w vbs, (w, vbs) ∈ ws →
    vbs = if w = "" then [] else sortInts (ownedVbs rs o w)
  requesters_nodup : (p.requestingOwner.map Prod.fst).Nodup
  mem_requesters : ∀ n, n ∈ p.requestingOwner.map Prod.fst ↔ n ≠ "" ∧ ∃ r ∈ rs, r.newOwner = n
  requested : ∀ n vbs, (n, vbs) ∈ p.requestingOwner → vbs = sortInts (requestedVbs rs n)

/-! ## One row -/

section Step

variable (m : VbMaps) (r : ViewRow)

theorem requesting_addRow : (addRow m r).vbucketRequestingNodesMap =
    if r.newOwner = "" then m.vbucketRequestingNodesMap
    else m.vbucketRequestingNodesMap.push r.newOwner r.vbucket := by
  dsimp only [addRow]
  by_cases hn : r.newOwner = ""
  · simp [hn]
  · by_cases hm : r.newOwner ∈ m.vbucketRequestingNodesMap
    · simp [hn, hm]
    · simp only [ne_eq, hn, hm, not_false_eq_true, and_self, ↓reduceIte, GoMap.push, GoMap.index_insert,
        AList.insert_insert, GoMap.index_of_not_mem hm]
      rfl

theorem mem_requesting_addRow (n : String) : n ∈ (addRow m r).vbucketRequestingNodesMap ↔
    n ∈ m.vbucketRequestingNodesMap ∨ n ≠ "" ∧ r.newOwner = n := by
  rw [requesting_addRow]
  split_ifs with hr
  · rw [hr]; exact (or_iff_left fun h => h.1 h.2.symm).symm
  · rw [GoMap.mem_push]
    exact ⟨fun h => h.elim (fun he => .inr ⟨fun h => hr (he.symm.trans h), he.symm⟩) .inl,
      fun h => h.elim .inr fun ⟨_, he⟩ => .inl he.symm⟩

theorem mem_nodeMap_addRow (o : String) : o ∈ (addRow m r).vbucketEventingNodeMap ↔
    o ∈ m.vbucketEventingNodeMap ∨ o ≠ "" ∧ r.currentOwner = o := by
  dsimp only [addRow]
  by_cases hc : r.currentOwner = o
  · subst hc
    by_cases ho : r.currentOwner = ""
    · simp [ho]
    · split_ifs <;> simp_all [AList.mem_insert]
  · split_ifs <;> simp [AList.mem_insert, Ne.symm hc, hc]

theorem index_nodeMap_addRow (o : String) : (addRow m r).vbucketEventingNodeMap.index o =
    if r.currentOwner = o ∧ o ≠ "" then
      (let base := if o ∈ m.vbucketEventingNodeMap then m.vbucketEventingNodeMap.index o
        else (∅ : GoMap String (List Int)).insert r.workerId []
      if r.workerId = "" then base else base.push r.workerId r.vbucket)
    else m.vbucketEventingNodeMap.index o := by
  dsimp only [addRow]
  by_cases hc : r.currentOwner = o ∧ o ≠ ""
  · obtain ⟨rfl, ho⟩ := hc
    by_cases hm : r.currentOwner ∈ m.vbucketEventingNodeMap <;> by_cases hw : r.workerId = "" <;>
      simp [ho, hm, hw, GoMap.index_insert, -AList.insert_empty]
  · rw [if_neg hc]
    by_cases h : r.currentOwner = ""
    · simp [h]
    · have hne : o ≠ r.currentOwner := fun he => hc ⟨he.symm, he ▸ h⟩
      split_ifs <;> first | rfl | simp only [GoMap.index_insert, if_neg hne]

end Step

section Step

variable (m : VbMaps) (r : ViewRow) {o : String} (ho : o ≠ "") (w : String)
include ho

theorem mem_workers_addRow : w ∈ (addRow m r).vbucketEventingNodeMap.index o ↔
    w ∈ m.vbucketEventingNodeMap.index o ∨
      r.currentOwner = o ∧ w = r.workerId ∧ (w ≠ "" ∨ o ∉ m.vbucketEventingNodeMap) := by
  rw [index_nodeMap_addRow]
  by_cases hc : r.currentOwner = o
  · subst hc
    by_cases hm : r.currentOwner ∈ m.vbucketEventingNodeMap <;> by_cases hw : r.workerId = "" <;>
      by_cases hww : w = r.workerId <;>
      simp [ho, hm, hw, hww, GoMap.mem_push, GoMap.index_of_not_mem, GoMap.default_eq_empty,
        -AList.insert_empty]
  · simp [hc]

theorem index_workers_addRow : ((addRow m r).vbucketEventingNodeMap.index o).index w =
    (m.vbucketEventingNodeMap.index o).index w ++
      if r.currentOwner = o ∧ w = r.workerId ∧ w ≠ "" then [r.vbucket] else [] := by
  rw [index_nodeMap_addRow]
  by_cases hc : r.currentOwner = o
  · subst hc
    have hnil : (default : List Int) = [] := rfl
    by_cases hm : r.currentOwner ∈ m.vbucketEventingNodeMap <;> by_cases hw : r.workerId = "" <;>
      by_cases hww : w = r.workerId <;>
      simp [ho, hm, hw, hww, hnil, GoMap.index_push, GoMap.index_insert, GoMap.index_of_not_mem,
        GoMap.default_eq_empty, -AList.insert_empty]
  · simp [hc]

end Step

/-! ## All rows -/

section Run

variable (rs : List ViewRow)

theorem mem_requesting_foldl (m : VbMaps) (n : String) :
    n ∈ (rs.foldl addRow m).vbucketRequestingNodesMap ↔
      n ∈ m.vbucketRequestingNodesMap ∨ n ≠ "" ∧ ∃ r ∈ rs, r.newOwner = n := by
  induction rs generalizing m with
  | nil => simp
  | cons r rs ih =>
    rw [List.foldl_cons, ih, mem_requesting_addRow, List.exists_mem_cons_iff, and_or_left, or_assoc]

theorem index_requesting_foldl (m : VbMaps) {n : String} (hn : n ≠ "") :
    (rs.foldl addRow m).vbucketRequestingNodesMap.index n =
      m.vbucketRequestingNodesMap.index n ++ requestedVbs rs n := by
  induction rs generalizing m with
  | nil => simp [requestedVbs]
  | cons r rs ih =>
    rw [List.foldl_cons, ih, requesting_addRow, requestedVbs_cons]
    by_cases hr : r.newOwner = n
    · simp [hr, hn, GoMap.index_push]
    · split_ifs <;> simp [hr, Ne.symm hr, GoMap.index_push]

theorem mem_nodeMap_foldl (m : VbMaps) (o : String) :
    o ∈ (rs.foldl addRow m).vbucketEventingNodeMap ↔
      o ∈ m.vbucketEventingNodeMap ∨ o ≠ "" ∧ ∃ r ∈ rs, r.currentOwner = o := by
  induction rs generalizing m with
  | nil => simp
  | cons r rs ih =>
    rw [List.foldl_cons, ih, mem_nodeMap_addRow, List.exists_mem_cons_iff, and_or_left, or_assoc]

variable {o : String} (ho : o ≠ "") (w : String)
include ho

theorem mem_workers_foldl (m : VbMaps) : w ∈ (rs.foldl addRow m).vbucketEventingNodeMap.index o ↔
    w ∈ m.vbucketEventingNodeMap.index o ∨ (w ≠ "" ∧ ∃ r ∈ rs, r.currentOwner = o ∧ r.workerId = w) ∨
      o ∉ m.vbucketEventingNodeMap ∧
        (rs.find? fun r => r.currentOwner = o).map ViewRow.workerId = some w := by
  induction rs generalizing m with
  | nil => simp
  | cons r rs ih =>
    rw [List.foldl_cons, ih, mem_workers_addRow _ _ ho, mem_nodeMap_addRow, List.exists_mem_cons_iff,
      List.find?_cons]
    by_cases hr : r.currentOwner = o
    · by_cases hww : w = r.workerId
      · subst hww
        simp only [hr, ho, true_and, decide_True, Option.map_some', ne_eq, not_false_eq_true, or_true,
          not_true_eq_false, and_false, or_false, and_true, false_and, true_or]
        exact or_iff_left_of_imp fun h => .inr (.inl h.1)
      · simp [hr, ho, hww, Ne.symm hww]
    · simp [hr]

theorem index_workers_foldl (m : VbMaps) : ((rs.foldl addRow m).vbucketEventingNodeMap.index o).index w =
    (m.vbucketEventingNodeMap.index o).index w ++ if w = "" then [] else ownedVbs rs o w := by
  induction rs generalizing m with
  | nil => simp [ownedVbs]
  | cons r rs ih =>
    rw [List.foldl_cons, ih, index_workers_addRow _ _ ho, ownedVbs_cons]
    by_cases hw : w = "" <;> simp [hw]

end Run

/-! ## The print loops -/

theorem mem_rangeEntries {V W : Type} {f : V → W} {m : GoMap String V} {k : String} {x : W} :
    (k, x) ∈ rangeEntries f m ↔ ∃ v, m.lookup k = some v ∧ f v = x := by
  simp only [rangeEntries, List.mem_map, Prod.mk.injEq]
  constructor
  · rintro ⟨⟨k, v⟩, he, rfl, rfl⟩; exact ⟨v, AList.mem_lookup_iff.mpr he, rfl⟩
  · rintro ⟨v, he, rfl⟩; exact ⟨⟨k, v⟩, AList.mem_lookup_iff.mp he, rfl, rfl⟩

theorem map_fst_rangeEntries {V W : Type} (f : V → W) (m : GoMap String V) :
    (rangeEntries f m).map Prod.fst = m.keys := by
  simp [rangeEntries, AList.keys, List.keys]

/-- A loop whose every row parses runs addRow over the parsed rows. -/
theorem foldlM_parseRow {rows : List JsonValue} {rs : List ViewRow} (hrs : rows.mapM parseRow = some rs)
    (m : VbMaps) : rows.foldlM (fun m row => (parseRow row).map (addRow m)) m = some (rs.foldl addRow m) := by
  induction rows generalizing rs m with
  | nil =>
    simp only [List.mapM_nil, Option.pure_def, Option.some.injEq] at hrs
    subst hrs; rfl
  | cons row rows ih =>
    simp only [List.mapM_cons, Option.bind_eq_bind, Option.bind_eq_some, Option.pure_def,
      Option.some.injEq] at hrs
    obtain ⟨r, hr, rs', hrs', rfl⟩ := hrs
    simp [hr, ih hrs']

/-- Whenever the view's answer has a rows array whose rows all parse, the tool prints a report
that shows, for the rows alone, every owner and requesting node once, the sorted vbuckets of
exactly each one's rows, and under an owner an extra worker entry with an empty id and no
vbuckets when the owner's first row has no worker. -/
theorem getVbEventingAssignment_describes {data : GoMap String JsonValue} {rows : List JsonValue}
    {rs : List ViewRow} (h : (data.lookup "rows").bind JsonValue.asArray = some rows)
    (hrs : rows.mapM parseRow = some rs) :
    ∃ p, getVbEventingAssignment data = some (some p) ∧ p.Describes rs := by
  refine ⟨report (rs.foldl addRow ⟨∅, ∅⟩), by simp [getVbEventingAssignment, h, foldlM_parseRow hrs], ?_⟩
  have hnil : (default : List Int) = [] := rfl
  have hown : ∀ {o ws}, (o, ws) ∈ (report (rs.foldl addRow ⟨∅, ∅⟩)).currOwner →
      o ≠ "" ∧ ws = rangeEntries sortInts ((rs.foldl addRow ⟨∅, ∅⟩).vbucketEventingNodeMap.index o) := by
    intro o ws hm
    obtain ⟨inner, hl, rfl⟩ := mem_rangeEntries.mp hm
    have ho := ((mem_nodeMap_foldl rs _ o).mp (AList.lookup_isSome.mp (by rw [hl]; rfl))).resolve_left
      (AList.not_mem_empty o)
    exact ⟨ho.1, by rw [GoMap.index_of_lookup hl]⟩
  constructor
  · exact (map_fst_rangeEntries _ _).symm ▸ AList.keys_nodup _
  · intro o
    rw [report, map_fst_rangeEntries]
    exact (mem_nodeMap_foldl rs _ o).trans (by simp)
  · intro o ws hm
    rw [(hown hm).2, map_fst_rangeEntries]
    exact AList.keys_nodup _
  · intro o ws hm w
    obtain ⟨ho, rfl⟩ := hown hm
    rw [map_fst_rangeEntries]
    exact (mem_workers_foldl rs ho w _).trans (by simp [GoMap.default_eq_empty])
  · intro o ws hm w vbs hw
    obtain ⟨ho, rfl⟩ := hown hm
    obtain ⟨v, hv, rfl⟩ := mem_rangeEntries.mp hw
    rw [← GoMap.index_of_lookup hv, index_workers_foldl rs ho]
    split_ifs <;> simp [GoMap.default_eq_empty, hnil, sortInts]
  · exact (map_fst_rangeEntries _ _).symm ▸ AList.keys_nodup _
  · intro n
    rw [report, map_fst_rangeEntries]
    exact (mem_requesting_foldl rs _ n).trans (by simp)
  · intro n vbs hn
    obtain ⟨v, hv, rfl⟩ := mem_rangeEntries.mp hn
    have hn : n ≠ "" := ((mem_requesting_foldl rs _ n).mp (AList.lookup_isSome.mp (by rw [hv]; rfl))).resolve_left
      (AList.not_mem_empty n) |>.1
    rw [← GoMap.index_of_lookup hv, index_requesting_foldl rs _ hn]
    simp [hnil]

/-- Two rows of one owner, the first without a worker: the report holds an empty-named worker. -/
theorem getVbEventingAssignment_describes_two_rows :
    let rows : List JsonValue :=
      [.object [("id", .string "app_vb_blob_5"), ("key", .array [.string "n1", .string ""]),
          ("value", .string "n2")],
        .object [("id", .string "app_vb_blob_3"), ("key", .array [.string "n1", .string "worker_app_0"]),
          ("value", .string "")]]
    let data := (∅ : GoMap String JsonValue).insert "rows" (.array rows)
    ((data.lookup "rows").bind JsonValue.asArray = some rows ∧
      rows.mapM parseRow = some [⟨5, "n1", "", "n2"⟩, ⟨3, "n1", "worker_app_0", ""⟩]) ∧
      ∃ p, getVbEventingAssignment data = some (some p) ∧
        p.Describes [⟨5, "n1", "", "n2"⟩, ⟨3, "n1", "worker_app_0", ""⟩] :=
  ⟨⟨rfl, by decide⟩, getVbEventingAssignment_describes rfl (by decide)⟩

end Tools

end Eventing

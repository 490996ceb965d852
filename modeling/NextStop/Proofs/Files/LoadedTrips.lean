import Mathlib.Data.List.Sort
import NextStop.Files.ScheduleFolder
import NextStop.Proofs.Files.TableRows
import NextStop.Proofs.StableSort
import NextStop.Proofs.Table

/-!
# The trips of a folder

The rows of stop paths are gathered by their trips, sorted by their indices, and then lose their
indices, so that a stop path is found again only by its position. This is right whatever the order
of the rows: where no trip has two rows of one index, the rows of a trip have only one increasing
order (`ScheduleFolder.inOrder_eq`), and where no two trips share a name, each is loaded from its
own row and its own stop paths alone (`ScheduleFolder.trip?_ofRows_eq_some_iff`).
`ScheduleFolder.read_in_any_rowOrder` says it of folders.
-/

namespace NextStop

namespace ScheduleFolder

/-! ## The rows of one trip -/

/-- The rows of a trip, in the order of the table. -/
def rowsOf (paths : List StopPathRow) (id : TripId) : List StopPathRow :=
  paths.filter fun row => row.trip == id

theorem mem_rowsOf {paths : List StopPathRow} {id : TripId} {row : StopPathRow} :
    row ∈ rowsOf paths id ↔ row ∈ paths ∧ row.trip = id := by
  simp [rowsOf]

/-- No trip has two rows of one index. -/
def DistinctPlaces (paths : List StopPathRow) : Prop :=
  (paths.map fun row => (row.trip, row.index)).Nodup

theorem DistinctPlaces.rowsOf {paths : List StopPathRow} (h : DistinctPlaces paths)
    (id : TripId) : ((rowsOf paths id).map StopPathRow.index).Nodup := by
  have hrows : (ScheduleFolder.rowsOf paths id).Pairwise fun a b =>
      (a.trip, a.index) ≠ (b.trip, b.index) :=
    (List.pairwise_map.mp h).filter _
  refine List.pairwise_map.mpr (hrows.imp_of_mem ?_)
  intro a b ha hb hne hindex
  have htrip : a.trip = b.trip := (mem_rowsOf.mp ha).2.trans (mem_rowsOf.mp hb).2.symm
  exact hne (Prod.ext htrip hindex)

/-! ## Increasing indices -/

/-- Rows of which each has a greater index than those before it. -/
def Increasing (rows : List StopPathRow) : Prop := rows.Pairwise fun a b => a.index < b.index

theorem Increasing.nodup {rows : List StopPathRow} (h : Increasing rows) :
    (rows.map StopPathRow.index).Nodup :=
  List.pairwise_map.mpr (h.imp fun hab => Nat.ne_of_lt hab)

/-- Rows of different indices are in increasing order once they are sorted. -/
theorem increasing_mergeSort {rows : List StopPathRow}
    (distinct : (rows.map StopPathRow.index).Nodup) :
    Increasing (rows.mergeSort fun a b => a.index ≤ b.index) := by
  have sorted := List.pairwise_mergeSort (StableSort.key_trans StopPathRow.index)
    (StableSort.key_total StopPathRow.index) rows
  have different : (rows.mergeSort fun a b => a.index ≤ b.index).Pairwise fun a b =>
      a.index ≠ b.index :=
    List.pairwise_map.mp (((List.mergeSort_perm rows _).map _).nodup_iff.mpr distinct)
  refine (sorted.and different).imp ?_
  rintro a b ⟨hle, hne⟩
  exact Nat.lt_of_le_of_ne (of_decide_eq_true hle) hne

/-- There is only one increasing order of the same rows. -/
theorem Increasing.eq_of_perm {rows rows' : List StopPathRow} (h : Increasing rows)
    (h' : Increasing rows') (hperm : rows.Perm rows') : rows = rows' :=
  hperm.eq_of_pairwise (fun _ _ _ _ hab hba => absurd hba (Nat.lt_asymm hab)) h h'

/-- In whatever order the rows of a trip come, its stop paths are those of the rows in increasing
order. -/
theorem inOrder_eq {rows rows' : List StopPathRow} (hperm : rows'.Perm rows)
    (h : Increasing rows') : inOrder rows = rows'.map StopPathRow.stopPath := by
  have distinct : (rows.map StopPathRow.index).Nodup := (hperm.map _).nodup_iff.mp h.nodup
  rw [inOrder, (increasing_mergeSort distinct).eq_of_perm h
    ((List.mergeSort_perm rows _).trans hperm.symm)]

theorem inOrder_perm {rows rows' : List StopPathRow} (hperm : rows'.Perm rows)
    (distinct : (rows.map StopPathRow.index).Nodup) : inOrder rows' = inOrder rows :=
  inOrder_eq ((List.mergeSort_perm rows _).trans hperm.symm) (increasing_mergeSort distinct)

theorem inOrder_eq_nil_iff {rows : List StopPathRow} : inOrder rows = [] ↔ rows = [] := by
  rw [inOrder, List.map_eq_nil_iff, ← List.length_eq_zero_iff, List.length_mergeSort,
    List.length_eq_zero_iff]

/-- Where the indices are the numbers below some number, a row stands at the place that its index
tells. -/
theorem Increasing.getElem?_index {rows : List StopPathRow} (h : Increasing rows) {n : Nat}
    (below : ∀ i, i ∈ rows.map StopPathRow.index ↔ i < n) {row : StopPathRow}
    (hrow : row ∈ rows) : rows[row.index]? = some row := by
  have hperm : (rows.map StopPathRow.index).Perm (List.range n) := by
    rw [List.perm_ext_iff_of_nodup h.nodup List.nodup_range]
    exact fun i => (below i).trans List.mem_range.symm
  have sorted : (rows.map StopPathRow.index).Pairwise (· < ·) := List.pairwise_map.mpr h
  have hrange : rows.map StopPathRow.index = List.range n :=
    hperm.eq_of_pairwise (fun _ _ _ _ hab hba => absurd hba (Nat.lt_asymm hab)) sorted
      List.pairwise_lt_range
  obtain ⟨i, hi, rfl⟩ := List.mem_iff_getElem.mp hrow
  have hindex : rows[i].index = i := by
    rw [← List.getElem_map StopPathRow.index (h := by simpa using hi)]
    simp only [hrange, List.getElem_range]
  rw [hindex, List.getElem?_eq_getElem hi]

/-! ## The timetable of rows -/

/-- What becomes of a row of the table of trips: a trip, if it has stop paths. -/
def loaded? (paths : List StopPathRow) (trip : Trip Float) : Option (Trip Float) :=
  if (rowsOf paths trip.id).isEmpty then none
  else some { trip with stopPaths := inOrder (rowsOf paths trip.id) }

theorem loaded?_eq_some_iff {paths : List StopPathRow} {trip l : Trip Float} :
    loaded? paths trip = some l ↔ (∃ row ∈ paths, row.trip = trip.id) ∧
      { trip with stopPaths := inOrder (rowsOf paths trip.id) } = l := by
  have hrows : ¬ (rowsOf paths trip.id).isEmpty ↔ ∃ row ∈ paths, row.trip = trip.id := by
    rw [List.isEmpty_iff, List.eq_nil_iff_forall_not_mem]
    simp [mem_rowsOf]
  rw [loaded?, Option.ite_none_left_eq_some, hrows, Option.some_inj]

theorem loaded?_perm {paths paths' : List StopPathRow} (hperm : paths'.Perm paths)
    (places : DistinctPlaces paths) (trip : Trip Float) :
    loaded? paths' trip = loaded? paths trip := by
  have hrows : (rowsOf paths' trip.id).Perm (rowsOf paths trip.id) := hperm.filter _
  rw [loaded?, loaded?, inOrder_perm hrows (places.rowsOf trip.id), hrows.isEmpty_eq]

/-- A trip is added once it has stop paths, and only if its name is still free. -/
theorem addTrip_byTrip (paths : List StopPathRow) (tt : Timetable Float) (trip : Trip Float) :
    addTrip (byTrip paths) tt trip =
      match loaded? paths trip with
      | none => tt
      | some l => if (tt.trip? trip.id).isSome then tt else tt.addTrip l := by
  have hrows : ((byTrip paths)[trip.id]?).getD [] = rowsOf paths trip.id :=
    byTrip_getD paths trip.id
  rw [addTrip, hrows, loaded?]
  cases hpaths : inOrder (rowsOf paths trip.id) with
  | nil =>
    rw [inOrder_eq_nil_iff.mp hpaths]
    rfl
  | cons p ps =>
    have hsome : ¬ (rowsOf paths trip.id).isEmpty := by
      rw [List.isEmpty_iff, ← inOrder_eq_nil_iff, hpaths]
      exact List.cons_ne_nil p ps
    rw [if_neg hsome]

theorem trip?_addTrip (paths : List StopPathRow) (tt : Timetable Float) (trip : Trip Float)
    (id : TripId) :
    (addTrip (byTrip paths) tt trip).trip? id =
      (tt.trip? id).or (if trip.id = id then loaded? paths trip else none) := by
  rw [addTrip_byTrip]
  cases hload : loaded? paths trip with
  | none => simp
  | some l =>
    have hid : l.id = trip.id := by
      rw [← (loaded?_eq_some_iff.mp hload).2]
    by_cases h : trip.id = id
    · subst h
      cases hfound : tt.trip? trip.id with
      | none => simp [Timetable.addTrip, Timetable.trip?, hid]
      | some found => simp [hfound]
    · rw [if_neg h, Option.or_none]
      dsimp only
      split
      · rfl
      · exact Table.getElem?_insert_of_ne _ _ (hid ▸ h)

/-- A trip is the first of its name that has stop paths. -/
theorem trip?_ofRows (trips : List (Trip Float)) (paths : List StopPathRow)
    (dates : List ServiceDateRow) (id : TripId) :
    (ofRows trips paths dates).trip? id =
      trips.findSome? fun trip => if trip.id = id then loaded? paths trip else none := by
  have hdates : ∀ tt : Timetable Float,
      (dates.foldl (fun tt row => tt.addServiceDate row.service row.date) tt).trip? id =
        tt.trip? id := by
    induction dates with
    | nil => exact fun _ => rfl
    | cons row dates ih => exact fun tt => ih _
  have htrips : ∀ tt : Timetable Float, (trips.foldl (addTrip (byTrip paths)) tt).trip? id =
      (tt.trip? id).or
        (trips.findSome? fun trip => if trip.id = id then loaded? paths trip else none) := by
    induction trips with
    | nil => simp
    | cons trip trips ih =>
      intro tt
      rw [List.foldl_cons, ih, trip?_addTrip, List.findSome?_cons, Option.or_assoc]
      congr 1
      cases (if trip.id = id then loaded? paths trip else none) <;> rfl
  have hempty : (Timetable.empty : Timetable Float).trip? id = none :=
    Std.TreeMap.getElem?_emptyc
  rw [ofRows, hdates, htrips, hempty, Option.none_or]

/-- Where no two trips share a name, each is loaded from its own row. -/
theorem trip?_ofRows_eq_some_iff {trips : List (Trip Float)} {paths : List StopPathRow}
    {dates : List ServiceDateRow} (ids : (trips.map Trip.id).Nodup) {id : TripId}
    {l : Trip Float} :
    (ofRows trips paths dates).trip? id = some l ↔
      ∃ trip ∈ trips, trip.id = id ∧ loaded? paths trip = some l := by
  rw [trip?_ofRows]
  constructor
  · intro h
    obtain ⟨trip, hmem, htrip⟩ := List.exists_of_findSome?_eq_some h
    split at htrip
    · next hid => exact ⟨trip, hmem, hid, htrip⟩
    · contradiction
  · rintro ⟨trip, hmem, hid, hl⟩
    cases hfound : trips.findSome? fun trip =>
        if trip.id = id then loaded? paths trip else none with
    | none =>
      have hnone := List.findSome?_eq_none_iff.mp hfound trip hmem
      rw [if_pos hid, hl] at hnone
      contradiction
    | some found =>
      obtain ⟨first, hfirst, hload⟩ := List.exists_of_findSome?_eq_some hfound
      split at hload
      · next hid' =>
        have hsame : first = trip :=
          List.inj_on_of_nodup_map ids hfirst hmem (hid'.trans hid.symm)
        rw [← hload, hsame, hl]
      · contradiction

theorem trip?_ofRows_perm {trips trips' : List (Trip Float)} {paths paths' : List StopPathRow}
    (ids : (trips.map Trip.id).Nodup) (places : DistinctPlaces paths)
    (htrips : trips'.Perm trips) (hpaths : paths'.Perm paths) (dates : List ServiceDateRow)
    (id : TripId) :
    (ofRows trips' paths' dates).trip? id = (ofRows trips paths dates).trip? id := by
  have ids' : (trips'.map Trip.id).Nodup := (htrips.map _).nodup_iff.mpr ids
  apply Option.ext
  intro l
  rw [trip?_ofRows_eq_some_iff ids, trip?_ofRows_eq_some_iff ids']
  simp only [htrips.mem_iff, loaded?_perm hpaths places]

/-- The trips of a timetable are those of a table of trips with a table of stop paths. -/
structure TripsOf (trips : List (Trip Float)) (paths : List StopPathRow)
    (tt : Timetable Float) : Prop where
  /-- A trip is there when it is listed and has a stop path. -/
  present_iff : ∀ id, (tt.trip? id).isSome ↔
    (∃ trip ∈ trips, trip.id = id) ∧ ∃ row ∈ paths, row.trip = id
  /-- Its stop paths are its rows by their indices, and all else is as it is listed. -/
  increasing : ∀ trip ∈ trips, ∀ l, tt.trip? trip.id = some l →
    ∃ rows : List StopPathRow, rows.Perm (rowsOf paths trip.id) ∧ Increasing rows ∧
      l = { trip with stopPaths := rows.map StopPathRow.stopPath }
  /-- If the indices are the numbers below some number, they tell the stop paths. -/
  stopPath? : ∀ trip ∈ trips, ∀ l, tt.trip? trip.id = some l → ∀ n,
    (∀ i, i ∈ (rowsOf paths trip.id).map StopPathRow.index ↔ i < n) →
      ∀ row ∈ rowsOf paths trip.id, l.stopPath? row.index = some row.stopPath

theorem tripsOf_ofRows {trips : List (Trip Float)} {paths : List StopPathRow}
    (ids : (trips.map Trip.id).Nodup) (places : DistinctPlaces paths)
    (dates : List ServiceDateRow) : TripsOf trips paths (ofRows trips paths dates) := by
  have increasing : ∀ trip ∈ trips, ∀ l, (ofRows trips paths dates).trip? trip.id = some l →
      ∃ rows : List StopPathRow, rows.Perm (rowsOf paths trip.id) ∧ Increasing rows ∧
        l = { trip with stopPaths := rows.map StopPathRow.stopPath } := by
    intro trip hmem l hl
    obtain ⟨trip', hmem', hid, hload⟩ := (trip?_ofRows_eq_some_iff ids).mp hl
    obtain rfl : trip' = trip := List.inj_on_of_nodup_map ids hmem' hmem hid
    exact ⟨_, List.mergeSort_perm _ _, increasing_mergeSort (places.rowsOf trip'.id),
      (loaded?_eq_some_iff.mp hload).2.symm⟩
  refine ⟨fun id => ?_, increasing, ?_⟩
  · rw [Option.isSome_iff_exists]
    constructor
    · rintro ⟨l, hl⟩
      obtain ⟨trip, hmem, rfl, hload⟩ := (trip?_ofRows_eq_some_iff ids).mp hl
      exact ⟨⟨trip, hmem, rfl⟩, (loaded?_eq_some_iff.mp hload).1⟩
    · rintro ⟨⟨trip, hmem, rfl⟩, hrow⟩
      exact ⟨_, (trip?_ofRows_eq_some_iff ids).mpr
        ⟨trip, hmem, rfl, loaded?_eq_some_iff.mpr ⟨hrow, rfl⟩⟩⟩
  · intro trip hmem l hl n below row hrow
    obtain ⟨rows, hperm, hincreasing, rfl⟩ := increasing trip hmem l hl
    have below' : ∀ i, i ∈ rows.map StopPathRow.index ↔ i < n := fun i =>
      (hperm.map StopPathRow.index).mem_iff.trans (below i)
    rw [Trip.stopPath?, List.getElem?_map,
      hincreasing.getElem?_index below' (hperm.mem_iff.mpr hrow)]
    rfl

/-! ## Folders -/

/-- The tables of trips and of stop paths have the same rows in some order, and the table of dates
is the same. -/
structure Reordered (t t' : FileTree) (folder : String) : Prop where
  trips : t.SameRows t' (Path.join folder "trips.csv")
  stopPaths : t.SameRows t' (Path.join folder "stop_paths.csv")
  dates : FileTree.entry? t' (Path.join folder "calendar_dates.csv") =
    FileTree.entry? t (Path.join folder "calendar_dates.csv")

theorem Reordered.readDates {t t' : FileTree} {folder : String} (h : Reordered t t' folder) :
    readDates t' folder = readDates t folder := by
  simp only [ScheduleFolder.readDates, FileTree.readTable, FileTree.content?, h.dates]

theorem read_eq_ok_iff {t : FileTree} {folder : String} {trips : List (Trip Float)}
    {paths : List StopPathRow} {tt : Timetable Float}
    (htrips : t.readTable (Path.join folder "trips.csv") tripColumns trip? = .ok trips)
    (hpaths : t.readTable (Path.join folder "stop_paths.csv") stopPathColumns stopPathRow? =
      .ok paths) :
    read t folder = .ok tt ↔
      ∃ dates, readDates t folder = .ok dates ∧ ofRows trips paths dates = tt := by
  rw [read, htrips, hpaths]
  cases readDates t folder <;> simp [bind, Except.bind, pure, Except.pure]

/-- A folder gives the trips of its rows, and the same trips when the rows of its tables come in
another order. -/
theorem read_in_any_rowOrder {t : FileTree} {folder : String} {tt : Timetable Float}
    {trips : List (Trip Float)} {paths : List StopPathRow} (hread : read t folder = .ok tt)
    (htrips : t.readTable (Path.join folder "trips.csv") tripColumns trip? = .ok trips)
    (hpaths : t.readTable (Path.join folder "stop_paths.csv") stopPathColumns stopPathRow? =
      .ok paths)
    (ids : (trips.map Trip.id).Nodup) (places : DistinctPlaces paths) :
    TripsOf trips paths tt ∧
      ∀ t', Reordered t t' folder →
        ∃ tt', read t' folder = .ok tt' ∧ ∀ id, tt'.trip? id = tt.trip? id := by
  obtain ⟨dates, hdates, rfl⟩ := (read_eq_ok_iff htrips hpaths).mp hread
  refine ⟨tripsOf_ofRows ids places dates, fun t' h => ?_⟩
  obtain ⟨trips', htrips', hperm⟩ := FileTree.readTable_rowsPermuted h.trips htrips
  obtain ⟨paths', hpaths', hperm'⟩ := FileTree.readTable_rowsPermuted h.stopPaths hpaths
  refine ⟨ofRows trips' paths' dates, ?_, trip?_ofRows_perm ids places hperm hperm' dates⟩
  exact (read_eq_ok_iff htrips' hpaths').mpr ⟨dates, h.readDates.trans hdates, rfl⟩

/-- A folder with a table of trips and one of stop paths, of the given rows. -/
def folderOf (trips paths : List (List String)) : FileTree :=
  ((FileTree.ofFolder ["home"]).put "trips.csv"
    (Content.ofString (Csv.write (tripColumns :: trips)))).put "stop_paths.csv"
      (Content.ofString (Csv.write (stopPathColumns :: paths)))

section FolderOf

variable (trips paths : List (List String))

theorem folderOf_trips : (folderOf trips paths).content? (Path.join "" "trips.csv") =
    some (Content.ofString (Csv.write (tripColumns :: trips))) := by
  rfl

theorem folderOf_stopPaths : (folderOf trips paths).content? (Path.join "" "stop_paths.csv") =
    some (Content.ofString (Csv.write (stopPathColumns :: paths))) := by
  rfl

theorem folderOf_dates :
    FileTree.entry? (folderOf trips paths) (Path.join "" "calendar_dates.csv") = none := by
  rfl

theorem readDates_folderOf : readDates (folderOf trips paths) "" = .ok [] := by
  rw [readDates, folderOf_dates]
  rfl

end FolderOf

/-- Two trips that leave a minute apart. -/
def twoTrips : List (List String) :=
  [["t1", "r", "", "b", "wk", "false", "0"], ["t2", "r", "", "b", "wk", "false", "60"]]

/-- Stop paths of one trip, the later one first, with one of another trip between them. -/
def mixedRows : List (List String) :=
  [["t1", "1", "north", "9", "5", "30", "false", ""],
    ["t2", "0", "south", "0", "0", "60", "true", ""],
    ["t1", "0", "south", "0", "0", "0", "true", ""]]

theorem readTable_twoTrips (paths : List (List String)) :
    (folderOf twoTrips paths).readTable (Path.join "" "trips.csv") tripColumns trip? =
      .ok [⟨"t1", "r", none, "b", "wk", false, 0, []⟩,
        ⟨"t2", "r", none, "b", "wk", false, 60, []⟩] := by
  refine FileTree.readTable_eq_ok_iff.mpr ⟨_, folderOf_trips _ _, Table.read_eq_ok_iff.mpr ?_⟩
  rw [Csv.records_write (by decide) (by decide)]
  exact .cons (by rfl) (.cons (by rfl) .nil)

theorem readTable_mixedRows (trips : List (List String)) :
    (folderOf trips mixedRows).readTable (Path.join "" "stop_paths.csv") stopPathColumns
        stopPathRow? =
      .ok [⟨"t1", 1, ⟨"north", 9, 5, 30, false, none⟩⟩,
        ⟨"t2", 0, ⟨"south", 0, 0, 60, true, none⟩⟩,
        ⟨"t1", 0, ⟨"south", 0, 0, 0, true, none⟩⟩] := by
  refine FileTree.readTable_eq_ok_iff.mpr
    ⟨_, folderOf_stopPaths _ _, Table.read_eq_ok_iff.mpr ?_⟩
  rw [Csv.records_write (by decide) (by decide)]
  exact .cons (by rfl) (.cons (by rfl) (.cons (by rfl) .nil))

theorem reordered_folderOf {trips trips' paths paths' : List (List String)}
    (htrips : trips'.Perm trips) (hpaths : paths'.Perm paths)
    (some_cells : ∀ row ∈ trips ++ paths, row ≠ []) :
    Reordered (folderOf trips paths) (folderOf trips' paths') "" where
  trips c hc := by
    obtain rfl := Option.some.inj ((folderOf_trips trips paths).symm.trans hc)
    refine ⟨_, folderOf_trips trips' paths', Csv.rowsPermuted_write ?_ (by decide) htrips⟩
    simp_all [tripColumns]
  stopPaths c hc := by
    obtain rfl := Option.some.inj ((folderOf_stopPaths trips paths).symm.trans hc)
    refine ⟨_, folderOf_stopPaths trips' paths', Csv.rowsPermuted_write ?_ (by decide) hpaths⟩
    simp_all [stopPathColumns]
  dates := by rw [folderOf_dates, folderOf_dates]

theorem read_in_any_rowOrder_mixedRows :
    let south : StopPath Float := ⟨"south", 0, 0, 0, true, none⟩
    let north : StopPath Float := ⟨"north", 9, 5, 30, false, none⟩
    let line : Trip Float := ⟨"t1", "r", none, "b", "wk", false, 0, [south, north]⟩
    ∃ tt tt', read (folderOf twoTrips mixedRows) "" = .ok tt ∧
      read (folderOf twoTrips.reverse mixedRows.reverse) "" = .ok tt' ∧
      (∀ id, tt'.trip? id = tt.trip? id) ∧ tt.trip? "t1" = some line ∧
      line.stopPath? 0 = some south ∧ line.stopPath? 1 = some north := by
  intro south north line
  have hread := (read_eq_ok_iff (readTable_twoTrips mixedRows) (readTable_mixedRows twoTrips)).mpr
    ⟨[], readDates_folderOf _ _, rfl⟩
  obtain ⟨htrips, hany⟩ := read_in_any_rowOrder hread (readTable_twoTrips mixedRows)
    (readTable_mixedRows twoTrips) (by decide) (by unfold DistinctPlaces; decide)
  obtain ⟨tt', hread', hsame⟩ := hany _
    (reordered_folderOf (List.reverse_perm _) (List.reverse_perm _) (by decide))
  obtain ⟨l, hl⟩ := Option.isSome_iff_exists.mp
    ((htrips.present_iff "t1").mpr ⟨by simp, by simp⟩)
  have hlisted := htrips.increasing ⟨"t1", "r", none, "b", "wk", false, 0, []⟩ (by simp) l hl
  have hplaces := htrips.stopPath? ⟨"t1", "r", none, "b", "wk", false, 0, []⟩ (by simp) l hl 2
    (fun i => by simp [rowsOf]; omega)
  obtain ⟨rows, hperm, hrows, rfl⟩ := hlisted
  have hboth : (rowsOf [⟨"t1", 1, north⟩, ⟨"t2", 0, ⟨"south", 0, 0, 60, true, none⟩⟩,
      ⟨"t1", 0, south⟩] "t1").Perm [⟨"t1", 0, south⟩, ⟨"t1", 1, north⟩] := .swap ..
  obtain rfl := hrows.eq_of_perm (by simp [Increasing]) (hperm.trans hboth)
  exact ⟨_, tt', hread, hread', hsame, hl, hplaces ⟨"t1", 0, south⟩ (by simp [rowsOf, south]),
    hplaces ⟨"t1", 1, north⟩ (by simp [rowsOf, north])⟩

end ScheduleFolder

end NextStop

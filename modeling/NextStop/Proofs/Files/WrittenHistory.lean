import NextStop.Proofs.Files.EventRows

/-!
# Written batches and the history

What batches of records leave for the next warm start: the history file holds the stop events of
all batches, in the order in which they were written, under one row of column names. The other
kinds of records go to other places, since a path ends in the name of its file, and whether they
can be written does not matter, since the stop events of a batch come first.
-/

namespace NextStop

/-- A name that leads on from a folder. -/
def Path.IsName (name : String) : Prop :=
  '/' ∉ name.toList ∧ name ≠ "" ∧ name ≠ "." ∧ name ≠ ".."
  deriving Decidable

namespace FileTree

/-! ## Files beside each other -/

variable {t : FileTree} {place other : Place} {content : Content}

theorem entryAt_insertFile_self (h : place ≠ []) :
    (t.insertFile place content).entryAt place = some (.file content) := by
  rw [entryAt, if_neg h]
  exact Std.TreeMap.getElem?_insert_self

theorem entryAt_insertFile_of_ne (h : other ≠ place) :
    (t.insertFile place content).entryAt other = t.entryAt other := by
  rw [entryAt, entryAt, insertFile, Std.TreeMap.getElem?_insert,
    if_neg fun heq => h (Std.LawfulEqCmp.eq_of_compare heq).symm]

/-- A file that is not put in the place of a folder leaves every path as it is. -/
theorem place?_insertFile (h : t.entryAt place ≠ some .folder) (path : String) :
    (t.insertFile place content).place? path = t.place? path := by
  have hplace : place ≠ [] := by
    rintro rfl
    exact h rfl
  have hstep : (t.insertFile place content).step? = t.step? := by
    funext q name
    by_cases hq : q = place
    · subst hq
      rw [step?, step?, entryAt_insertFile_self hplace]
      cases hentry : t.entryAt q with
      | none => rfl
      | some entry =>
        cases entry with
        | file _ => rfl
        | folder => exact absurd hentry h
    · rw [step?, step?, entryAt_insertFile_of_ne hq]
  rw [place?, place?, hstep]
  rfl

/-- The path of a file in a folder leads nowhere but to a place of that name. -/
theorem getLast?_of_place?_join {folder name : String} (named : Path.IsName name)
    (h : t.place? (Path.join folder name) = some place) : place.getLast? = some name := by
  obtain ⟨no_slash, hempty, hdot, hdots⟩ := named
  have hnames : ∃ before, Path.names (Path.join folder name) = before ++ [name] := by
    by_cases hfolder : folder = ""
    · refine ⟨[], ?_⟩
      rw [Path.join, if_pos hfolder, Path.names_eq_singleton no_slash]
      rfl
    · rcases Path.names_join hfolder no_slash with hjoin | ⟨before, -, hjoin⟩
      · exact ⟨_, hjoin⟩
      · exact ⟨before, hjoin⟩
  obtain ⟨before, hnames⟩ := hnames
  unfold place? at h
  split at h
  · contradiction
  rw [hnames, List.foldlM_append, Option.bind_eq_bind, Option.bind_eq_some_iff] at h
  obtain ⟨q, -, hlast⟩ := h
  rw [List.foldlM_cons, Option.bind_eq_bind, Option.bind_eq_some_iff] at hlast
  obtain ⟨q', hstep, hq'⟩ := hlast
  obtain rfl := Option.some.inj hq'
  unfold step? at hstep
  split at hstep
  · rw [if_neg (by simp [hempty, hdot]), if_neg hdots] at hstep
    rw [← Option.some.inj hstep, List.getLast?_concat]
  · contradiction

/-- A text can only be added to a file or where there is nothing. -/
theorem append?_cases {path text : String} {t' : FileTree} (h : t.append? path text = some t') :
    ∃ place content, t.place? path = some place ∧ t.entryAt place ≠ some .folder ∧
      t' = t.insertFile place content := by
  rw [append?, Option.bind_eq_some_iff] at h
  obtain ⟨place, hplace, hput⟩ := h
  cases hentry : t.entryAt place with
  | none =>
    rw [hentry] at hput
    dsimp only at hput
    split at hput
    · refine ⟨place, _, hplace, ?_, (Option.some.inj hput).symm⟩
      rw [hentry]
      exact fun h => by contradiction
    · contradiction
  | some entry =>
    rw [hentry] at hput
    cases entry with
    | folder => contradiction
    | file content =>
      refine ⟨place, _, hplace, ?_, (Option.some.inj hput).symm⟩
      rw [hentry]
      exact fun h => nomatch Option.some.inj h

end FileTree

namespace Record

theorem isName_fileName (r : Record Float) : Path.IsName r.fileName := by
  have hall : ∀ name ∈ fileNames, Path.IsName name := by decide
  exact hall _ r.fileName_mem_fileNames

/-- Only stop events go to the history file. -/
theorem fileName_ne {r : Record Float} (h : r.rank ≠ 5) :
    r.fileName ≠ "arrival_departures.csv" := by
  cases r <;> simp_all [fileName, kind, rank]

theorem filter_rank_five (batch : List (Record Float)) :
    batch.filter (fun r => r.rank == 5) = (batch.filterMap stopEvent?).map stopEvent := by
  induction batch with
  | nil => rfl
  | cons r batch ih =>
    cases r with
    | stopEvent e => exact congrArg (stopEvent e :: ·) ih
    | status e => exact ih
    | headway g => exact ih
    | position p => exact ih
    | prediction p => exact ih
    | pathEstimate p => exact ih

end Record

namespace HistoryFile

/-! ## The history file while batches are written -/

/-- The path of the history among the files of records in a folder. -/
def recorded (folder : String) : String := Path.join folder "arrival_departures.csv"

/-- What there is at the place of the history file when stop events have been written to it. -/
def written : List StopEvent → Option FileTree.Entry
  | [] => none
  | e :: events =>
    some (.file (Content.ofString (Csv.write (columns :: (e :: events).map eventTexts))))

/-- The history file of a folder belongs to a place and holds these stop events. -/
structure Holds (folder : String) (place : Place) (events : List StopEvent) (t : FileTree) :
    Prop where
  leads : t.place? (recorded folder) = some place
  entry : t.entryAt place = written events

variable {folder : String} {place : Place} {events : List StopEvent} {d : Disk}

theorem written_ne_folder (events : List StopEvent) : written events ≠ some .folder := by
  cases events with
  | nil => exact fun h => by contradiction
  | cons e events => exact fun h => nomatch Option.some.inj h

/-- With more rows at its end, the file holds more events. -/
theorem written_append (e : StopEvent) (before events : List StopEvent) :
    written (e :: before ++ events) = some (.file
      (Content.ofString (Csv.write (columns :: (e :: before).map eventTexts)) ++
        Content.ofString (Csv.write (events.map eventTexts)))) := by
  have hrows : columns :: (e :: before ++ events).map eventTexts =
      (columns :: (e :: before).map eventTexts) ++ events.map eventTexts := by
    rw [List.map_append, List.cons_append]
  rw [Content.ofString, Content.ofString, ← List.map_append, ← String.toList_append,
    ← Csv.write_append, ← hrows]
  rfl

theorem Holds.entry? {t : FileTree} (h : Holds folder place events t) :
    t.entry? (recorded folder) = written events := by
  rw [FileTree.entry?, h.leads, Option.bind_some, h.entry]

theorem Holds.getLast? {t : FileTree} (h : Holds folder place events t) :
    place.getLast? = some "arrival_departures.csv" :=
  FileTree.getLast?_of_place?_join (by decide) h.leads

theorem Holds.ne_nil {t : FileTree} (h : Holds folder place events t) : place ≠ [] := by
  intro hnil
  have hlast := h.getLast?
  rw [hnil] at hlast
  contradiction

/-- What is added to the file of another name does not reach the history. -/
theorem Holds.append_other (h : Holds folder place events d.tree) {name : String}
    (named : Path.IsName name) (hname : name ≠ "arrival_departures.csv") (text : String) :
    Holds folder place events (d.change (.append (Path.join folder name) text)).2.tree := by
  rw [Disk.change, FileTree.after]
  cases happend : d.tree.append? (Path.join folder name) text with
  | none => exact h
  | some t =>
    obtain ⟨other, content, hother, hfree, rfl⟩ := FileTree.append?_cases happend
    have hne : place ≠ other := by
      rintro rfl
      have hlast := FileTree.getLast?_of_place?_join named hother
      rw [h.getLast?] at hlast
      exact hname (Option.some.inj hlast).symm
    exact ⟨(FileTree.place?_insertFile hfree _).trans h.leads,
      (FileTree.entryAt_insertFile_of_ne hne).trans h.entry⟩

theorem Holds.put (h : Holds folder place events d.tree) {more : List StopEvent}
    {content : Content} (hwritten : written more = some (.file content)) :
    Holds folder place more (d.tree.insertFile place content) := by
  have hfree : d.tree.entryAt place ≠ some .folder := by
    rw [h.entry]
    exact written_ne_folder events
  exact ⟨(FileTree.place?_insertFile hfree _).trans h.leads,
    (FileTree.entryAt_insertFile_self h.ne_nil).trans hwritten.symm⟩

/-- The rows that are added for stop events: in a new file the names of the columns come first. -/
def rowsFor (t : FileTree) (folder : String) (events : List StopEvent) : List (List String) :=
  if (t.entry? (recorded folder)).isSome then events.map eventTexts
  else columns :: events.map eventTexts

theorem Holds.append?_rowsFor {t : FileTree} (h : Holds folder place events t) (e : StopEvent)
    (more : List StopEvent) : ∃ content,
    t.append? (recorded folder) (Csv.write (rowsFor t folder (e :: more))) =
        some (t.insertFile place content) ∧
      written (events ++ e :: more) = some (.file content) := by
  rw [FileTree.append?, h.leads, Option.bind_some, rowsFor, h.entry?, h.entry]
  cases events with
  | nil =>
    have hshort : (place.getLast?.getD "").utf8ByteSize ≤ Path.longestName := by
      rw [h.getLast?]
      decide
    exact ⟨_, if_pos hshort, rfl⟩
  | cons b before => exact ⟨_, rfl, written_append b before (e :: more)⟩

/-- Stop events can always be written. -/
theorem Holds.addStopEvents (h : Holds folder place events d.tree) (more : List StopEvent) :
    ∃ d', d.addRecords folder (more.map .stopEvent) = (true, d') ∧
      Holds folder place (events ++ more) d'.tree := by
  cases more with
  | nil =>
    rw [List.append_nil]
    exact ⟨d, rfl, h⟩
  | cons e more =>
    obtain ⟨content, happend, hwritten⟩ := h.append?_rowsFor e more
    have hadd : d.addRecords folder ((e :: more).map .stopEvent) =
        d.change (.append (recorded folder) (Csv.write (rowsFor d.tree folder (e :: more)))) := by
      have htexts : ((e :: more).map Record.stopEvent).map Record.texts =
          (e :: more).map eventTexts := List.map_map
      rw [rowsFor, ← htexts]
      rfl
    rw [hadd, Disk.change, FileTree.after, happend]
    exact ⟨_, rfl, h.put hwritten⟩

theorem Holds.addOthers (h : Holds folder place events d.tree) {records : List (Record Float)}
    (others : ∀ r ∈ records, r.rank ≠ 5) :
    Holds folder place events (d.addRecords folder records).2.tree := by
  cases records with
  | nil => exact h
  | cons r rest =>
    exact h.append_other (Record.isName_fileName r)
      (Record.fileName_ne (others r List.mem_cons_self)) _

/-- The history is settled once the stop events of a batch are written. -/
theorem Holds.writeRanks (h : Holds folder place events d.tree) (batch : List (Record Float))
    {ranks : List Rank} (lower : 5 ∉ ranks) :
    Holds folder place events (d.writeRanks folder batch ranks).tree := by
  induction ranks generalizing d with
  | nil => exact h
  | cons rank ranks ih =>
    obtain ⟨hrank, hranks⟩ := not_or.mp (mt List.mem_cons.mpr lower)
    have hothers : ∀ r ∈ batch.filter (fun r => r.rank == rank), r.rank ≠ 5 := by
      intro r hr hfive
      rw [List.mem_filter, hfive, beq_iff_eq] at hr
      exact hrank hr.2
    have hadd := h.addOthers hothers
    rw [Disk.writeRanks]
    split
    · rename_i d' hd'
      rw [hd'] at hadd
      exact ih hadd hranks
    · rename_i d' hd'
      rwa [hd'] at hadd

/-- A batch adds its stop events to the history. -/
theorem Holds.writeBatch (h : Holds folder place events d.tree) (batch : List (Record Float)) :
    Holds folder place (events ++ batch.filterMap Record.stopEvent?)
      (d.writeBatch folder batch).tree := by
  have hranks : (List.finRange 6).reverse = [5, 4, 3, 2, 1, 0] := by decide
  obtain ⟨d', hadd, hd'⟩ := h.addStopEvents (batch.filterMap Record.stopEvent?)
  rw [Disk.writeBatch, hranks, Disk.writeRanks, Record.filter_rank_five, hadd]
  exact hd'.writeRanks batch (by decide)

theorem Holds.writeBatches (h : Holds folder place events d.tree)
    (batches : List (List (Record Float))) :
    Holds folder place (events ++ batches.flatten.filterMap Record.stopEvent?)
      (d.writeBatches folder batches).tree := by
  induction batches generalizing d events with
  | nil =>
    rw [List.flatten_nil, List.filterMap_nil, List.append_nil]
    exact h
  | cons batch batches ih =>
    rw [List.flatten_cons, List.filterMap_append, ← List.append_assoc]
    exact ih (h.writeBatch batch)

/-! ## Reading it back -/

/-- The history file is read as the events that it holds. -/
theorem Holds.read {t : FileTree} (h : Holds folder place events t)
    (storable : ∀ e ∈ events, e.Storable) : read t (recorded folder) = .ok events := by
  rw [HistoryFile.read, h.entry?]
  cases events with
  | nil => rfl
  | cons e events =>
    rw [if_neg (by simp [written]), FileTree.readTable, FileTree.content?, h.entry?, written]
    dsimp only
    rw [read_eventTexts storable]
    rfl

/-- Batches of records that are written to a folder without a history file leave a history in
which the stop events of all batches are found again, those with times in a window in the order
in which they were written, every one as it was. -/
theorem query_writeBatches {d : Disk} {folder : String}
    (hplace : d.tree.place? (recorded folder) = some place) (hnew : d.tree.entryAt place = none)
    (batches : List (List (Record Float)))
    (storable : ∀ batch ∈ batches, ∀ r ∈ batch, ∀ e ∈ r.stopEvent?, e.Storable)
    (first past : Int) :
    query (d.writeBatches folder batches).tree (recorded folder) first past =
      .ok ((batches.flatten.filterMap Record.stopEvent?).filter
        fun e => first ≤ e.time && e.time < past) := by
  have hstart : Holds folder place [] d.tree := ⟨hplace, hnew⟩
  have hall : ∀ e ∈ batches.flatten.filterMap Record.stopEvent?, e.Storable := by
    intro e he
    obtain ⟨r, hr, he⟩ := List.mem_filterMap.mp he
    obtain ⟨batch, hbatch, hr⟩ := List.mem_flatten.mp hr
    exact storable batch hbatch r hr e he
  rw [query, (hstart.writeBatches batches).read hall]
  rfl

/-- An arrival whose texts need quotes, and whose numbers are at the ends of their ranges. -/
def awkwardArrival : StopEvent where
  vehicle := "bus 7, \"express\""
  trip := "line\r\nbreak"
  route := ""
  direction := none
  block := ","
  stop := "\""
  index := 18446744073709551615
  time := -9223372036854775808
  kind := .arrival
  serviceDate := ⟨-262143, 1, 1, by decide⟩
  tripStart := 4294967295
  frequencyBased := true
  scheduled := some 9223372036854775807

/-- A departure that comes with a later batch. -/
def plainDeparture : StopEvent where
  vehicle := "bus 8"
  trip := "t"
  route := "r"
  direction := some "north"
  block := "b"
  stop := "s"
  index := 0
  time := 20
  kind := .departure
  serviceDate := ⟨2024, 2, 29, by decide⟩
  tripStart := 0
  frequencyBased := false
  scheduled := none

theorem awkwardArrival_storable : awkwardArrival.Storable where
  index := by decide
  time := by decide
  year := by decide
  tripStart := by decide
  scheduled := by decide
  direction := by decide

theorem plainDeparture_storable : plainDeparture.Storable where
  index := by decide
  time := by decide
  year := by decide
  tripStart := by decide
  scheduled := by decide
  direction := by decide

theorem query_writeBatches_twoBatches :
    query ((Disk.ofTree (FileTree.ofFolder ["home"])).writeBatches ""
        [[.status ⟨"bus 7", 0, .timeout, "late"⟩, .stopEvent awkwardArrival], [],
          [.stopEvent plainDeparture]]).tree (recorded "") (-9223372036854775808) 21 =
      .ok [awkwardArrival, plainDeparture] := by
  have hstorable : ∀ batch ∈ [[Record.status ⟨"bus 7", 0, .timeout, "late"⟩,
      .stopEvent awkwardArrival], [], [.stopEvent plainDeparture]],
      ∀ r ∈ batch, ∀ e ∈ (r : Record Float).stopEvent?, e.Storable := by
    simp [Record.stopEvent?, awkwardArrival_storable, plainDeparture_storable]
  exact @query_writeBatches ["home", "arrival_departures.csv"] _ "" (by decide +kernel)
    (by decide +kernel) _ hstorable _ _

end HistoryFile

end NextStop

import RowStore.Proofs.Deletion
import RowStore.Proofs.PageLabels

/-!
# Scans of tables that change

A cursor is watched while tuples are inserted and deleted, pages are fetched, written back and dropped,
and the cursor itself is rewound. It sees each page once, as some database had it since the cursor was
opened: the page was cached when the cursor came to it, or it was read and rests there afterwards. The
main statement says that what was stored all the time is returned once, and nothing that never was.
-/
namespace RowStore
open Database

/-- The tuple that readers see at the record. -/
def Database.tupleAt? (db : Database) (record : RecordId) : Option Tuple :=
  (db.page? record.page).bind fun page => page.tuple? record.slot.toNat

/-- Both tuples are stored, the first one earlier in the order of pages and slots. -/
def Tuple.Before (a b : Tuple) : Prop :=
  ∃ first second, a.record = some first ∧ b.record = some second ∧ first.place.Earlier second.place

theorem Tuple.Before.entry_ne {a b : Tuple} (h : a.Before b) : a.entry ≠ b.entry := by
  obtain ⟨first, second, hfirst, hsecond, hearlier⟩ := h
  intro heq
  have hrecord : a.record = b.record := congrArg Prod.fst heq
  rw [hfirst, hsecond, Option.some.injEq] at hrecord
  rw [hrecord, Place.Earlier] at hearlier
  omega

namespace Page.Labelled
variable {id : PageId} {page : Page}

theorem place_record (h : page.Labelled id) {slot : Nat} (hslot : slot < page.numSlots) :
    (page.record slot).page = id ∧ (page.record slot).slot.toNat = slot :=
  ⟨h.identified, page.slot_record hslot h.slots⟩

theorem mem_tuples (h : page.Labelled id) {t : Tuple} (ht : t ∈ page.tuples) :
    ∃ record, t.record = some record ∧ record.page = id ∧ page.tuple? record.slot.toNat = some t := by
  obtain ⟨slot, htuple⟩ := mem_tuples_iff.mp ht
  obtain ⟨hpage, hplace⟩ :=
    h.place_record (List.getElem?_eq_some_iff.mp (tuple?_eq_some_iff.mp htuple)).1
  exact ⟨page.record slot, h.stored slot t htuple, hpage, by rwa [hplace]⟩

theorem pairwise_tuples (h : page.Labelled id) : page.tuples.Pairwise Tuple.Before := by
  rw [tuples, List.pairwise_filterMap, List.pairwise_iff_getElem]
  intro i j hi hj hlt a ha b hb
  have hfirst := h.stored i a (tuple?_eq_some_iff.mpr (List.getElem?_eq_some_iff.mpr ⟨hi, ha⟩))
  have hsecond := h.stored j b (tuple?_eq_some_iff.mpr (List.getElem?_eq_some_iff.mpr ⟨hj, hb⟩))
  refine ⟨_, _, hfirst, hsecond, Or.inr ⟨rfl, ?_⟩⟩
  change (page.record i).slot.toNat < (page.record j).slot.toNat
  rwa [(h.place_record hi).2, (h.place_record hj).2]

end Page.Labelled

/-- The pages are those of the file from number `first` on. -/
def Numbered (file : TableFile) (first : Nat) (seen : List Page) : Prop :=
  ∀ (i : Nat) (page : Page), seen[i]? = some page → page.Labelled ⟨file.id, UInt32.ofNat (first + i)⟩

theorem numbered_nil (file : TableFile) (first : Nat) : Numbered file first [] := by
  intro i page hi
  cases hi

namespace Numbered
variable {file : TableFile} {first : Nat} {page : Page} {seen more : List Page}

theorem cons (hpage : page.Labelled ⟨file.id, UInt32.ofNat first⟩) (h : Numbered file (first + 1) seen) :
    Numbered file first (page :: seen) := by
  intro i found hi
  cases i with
  | zero =>
    cases hi
    exact hpage
  | succ i =>
    rw [Nat.add_succ, ← Nat.succ_add]
    exact h i found hi

theorem append (h : Numbered file first seen) (hmore : Numbered file (first + seen.length) more) :
    Numbered file first (seen ++ more) := by
  intro i found hi
  rw [List.getElem?_append] at hi
  split at hi
  · exact h i found hi
  · next hlater =>
    have hfound := hmore _ found hi
    rwa [Nat.add_assoc, Nat.add_sub_cancel' (Nat.le_of_not_lt hlater)] at hfound

theorem mem (h : Numbered file first seen) (hsmall : first + seen.length ≤ UInt32.size)
    (hpage : page ∈ seen) :
    ∃ n : PageNo, page.Labelled ⟨file.id, n⟩ ∧ first ≤ n.toNat ∧ n.toNat < first + seen.length := by
  obtain ⟨i, hi⟩ := List.mem_iff_getElem?.mp hpage
  have hbound := (List.getElem?_eq_some_iff.mp hi).1
  refine ⟨_, h i page hi, ?_⟩
  rw [UInt32.toNat_ofNat_of_lt' (by omega)]
  omega

theorem exists_labelled (h : Numbered file 0 seen) {id : PageId} (htable : id.table = file.id)
    (hbound : id.number.toNat < seen.length) : ∃ page ∈ seen, page.Labelled id := by
  have hpage := h _ _ (List.getElem?_eq_getElem hbound)
  rw [Nat.zero_add, UInt32.ofNat_toNat, ← htable] at hpage
  exact ⟨_, List.getElem_mem hbound, hpage⟩

theorem pairwise (h : Numbered file 0 seen) (hsmall : seen.length ≤ UInt32.size) :
    (seen.flatMap Page.tuples).Pairwise Tuple.Before := by
  rw [List.pairwise_flatMap]
  constructor
  · intro page hpage
    obtain ⟨i, hi⟩ := List.mem_iff_getElem?.mp hpage
    exact (h i page hi).pairwise_tuples
  · rw [List.pairwise_iff_getElem]
    intro i j hi hj hlt a ha b hb
    obtain ⟨first, hfirst, hpage, _⟩ := (h i _ (List.getElem?_eq_getElem hi)).mem_tuples ha
    obtain ⟨second, hsecond, hpage', _⟩ := (h j _ (List.getElem?_eq_getElem hj)).mem_tuples hb
    refine ⟨first, second, hfirst, hsecond, Or.inl ?_⟩
    rw [RecordId.place, RecordId.place, hpage, hpage']
    change (UInt32.ofNat (0 + i)).toNat < (UInt32.ofNat (0 + j)).toNat
    rw [UInt32.toNat_ofNat_of_lt' (by omega), UInt32.toNat_ofNat_of_lt' (by omega)]
    omega

end Numbered

namespace Cursor

/-- What the search for a tuple on the `left` pages from number `page` on has seen: each page was cached
before the search, or it rests where it was read. -/
structure Advanced (file : TableFile) (page left : Nat) (db : Database) (answer : Option Tuple)
    (cursor : Cursor) (db' : Database) : Prop where
  labelled : db'.Labelled
  resting : ∀ id found, db.Resting id found → db'.Resting id found
  home : cursor.file = file
  pages : cursor.nextPage + cursor.pagesLeft = page + left
  ended : answer = none → cursor.pagesLeft = 0 ∧ cursor.buffered = []
  seen : ∃ seen, Numbered file page seen ∧ page + seen.length = cursor.nextPage ∧
    answer.toList ++ cursor.buffered = seen.flatMap Page.tuples ∧
      ∀ found ∈ seen, db.pool.page? found.id = some found ∨ db'.Resting found.id found

theorem advanced {file : TableFile} {left page : Nat} {db db' : Database} (h : db.Labelled)
    (hsmall : page + left ≤ UInt32.size) {answer : Option Tuple} {cursor : Cursor}
    (hadvance : advance file page left db = .ok answer (cursor, db')) :
    Advanced file page left db answer cursor db' := by
  induction left generalizing page db with
  | zero =>
    cases hadvance
    exact ⟨h, fun _ _ hrest => hrest, rfl, rfl, fun _ => ⟨rfl, rfl⟩, [], numbered_nil file page, rfl, rfl,
      List.forall_mem_nil _⟩
  | succ left ih =>
    rw [advance] at hadvance
    cases hfetch : fetch ⟨file.id, UInt32.ofNat page⟩ db with
    | error e middle =>
      rw [hfetch] at hadvance
      cases hadvance
    | ok frame middle =>
      rw [hfetch] at hadvance
      dsimp only at hadvance
      obtain ⟨hturned, hlabelled, _, hsource⟩ := h.fetched hfetch
      cases htuples : frame.page.tuples with
      | cons t ts =>
        rw [htuples] at hadvance
        cases hadvance
        refine ⟨hturned.labelled, hturned.resting, rfl, Nat.succ_add_eq_add_succ page left, ?_,
          [frame.page], (numbered_nil file (page + 1)).cons hlabelled, rfl, ?_, ?_⟩
        · intro hnone
          cases hnone
        · rw [List.flatMap_singleton, htuples]
          rfl
        · intro found hfound
          rw [List.mem_singleton.mp hfound, hlabelled.identified]
          exact hsource
      | nil =>
        rw [htuples] at hadvance
        have hrest := ih hturned.labelled (by omega) hadvance
        obtain ⟨seen, hnumbered, hlength, hall, hseen⟩ := hrest.seen
        refine ⟨hrest.labelled, fun id found hfound => hrest.resting id found (hturned.resting id found hfound),
          hrest.home, ?_, hrest.ended, frame.page :: seen, hnumbered.cons hlabelled, ?_, ?_, ?_⟩
        · rw [hrest.pages]
          omega
        · rw [← hlength, List.length_cons]
          omega
        · rw [List.flatMap_cons, htuples, hall]
          rfl
        · intro found hfound
          rcases List.mem_cons.mp hfound with rfl | hlater
          · rw [hlabelled.identified]
            exact hsource.imp id fun hresting => hrest.resting _ _ hresting
          · refine (hseen found hlater).imp (fun hcached => ?_) id
            -- a later page has another number, so it was cached before this fetch too
            have hpages := hrest.pages
            obtain ⟨n, hfound, hlower, _⟩ := hnumbered.mem (by omega) hlater
            apply hturned.kept _ _ _ hcached
            rw [hfound.identified]
            intro hid
            cases hid
            rw [UInt32.toNat_ofNat_of_lt' (by omega)] at hlower
            omega

end Cursor

/-- A cursor with its database, and what has happened since it was opened or rewound. -/
structure LiveScan where
  cursor : Cursor
  db : Database
  /-- The number of pages at that time. -/
  pages : Nat
  returned : List Tuple := []
  /-- The databases since that time, the one of that time included. -/
  moments : List Database

inductive ScanEvent where
  | next
  | rewind
  | call (call : Call)

namespace LiveScan

/-- A cursor that has just been opened. -/
def opened (file : TableFile) (db : Database) : LiveScan :=
  { cursor := Cursor.start file db.volume, db, pages := (file.numPages db.volume).toNat, moments := [db] }

/-- The scan after the event; there is none where the cursor fails. -/
def play (scan : LiveScan) : ScanEvent → Option LiveScan
  | .next =>
    match Cursor.next (scan.cursor, scan.db) with
    | .ok answer (cursor, db) =>
      some { scan with
        cursor, db, returned := scan.returned ++ answer.toList, moments := scan.moments ++ [db] }
    | .error _ _ => none
  | .rewind =>
    match Cursor.rewind (scan.cursor, scan.db) with
    | .ok _ (cursor, db) =>
      some { cursor, db, pages := (cursor.file.numPages db.volume).toNat, moments := [db] }
    | .error _ _ => none
  | .call call =>
    let db := call.leaves scan.db
    some { scan with db, moments := scan.moments ++ [db] }

def playAll (scan : LiveScan) : List ScanEvent → Option LiveScan
  | [] => some scan
  | event :: events => (scan.play event).bind fun scan => scan.playAll events

/-- What a watched cursor has returned since it was opened or rewound. -/
structure Exact (file : TableFile) (scan : LiveScan) : Prop where
  ordered : scan.returned.Pairwise Tuple.Before
  /-- Every tuple was seen at its record, on one of the pages that there were. -/
  stored : ∀ t ∈ scan.returned, ∃ record, t.record = some record ∧ record.page.table = file.id ∧
    record.page.number.toNat < scan.pages ∧ ∃ db ∈ scan.moments, db.tupleAt? record = some t
  /-- When the cursor reports the end, every row that was stored all the time has been returned once. -/
  complete : ∀ cursor db, Cursor.next (scan.cursor, scan.db) = .ok none (cursor, db) →
    ∀ record row, record.page.table = file.id → record.page.number.toNat < scan.pages →
      (∀ moment ∈ scan.moments ++ [db], (moment.tupleAt? record).map Tuple.fields = some row) →
        (scan.returned.map Tuple.entry).count (some record, row) = 1

/-- The cursor has visited the pages before the next one, each as it was at some moment, and what it has
returned and buffered are their tuples. -/
structure Tracks (file : TableFile) (scan : LiveScan) : Prop where
  labelled : scan.db.Labelled
  home : scan.cursor.file = file
  present : scan.db ∈ scan.moments
  pages : scan.cursor.nextPage + scan.cursor.pagesLeft = scan.pages
  small : scan.pages ≤ UInt32.size
  seen : ∃ seen, Numbered file 0 seen ∧ seen.length = scan.cursor.nextPage ∧
    scan.returned ++ scan.cursor.buffered = seen.flatMap Page.tuples ∧
      ∀ page ∈ seen, ∃ db ∈ scan.moments, db.page? page.id = some page

theorem tracks_opened (file : TableFile) {db : Database} (h : db.Labelled) :
    (opened file db).Tracks file := by
  constructor
  case labelled => exact h
  case home => rfl
  case present => exact List.mem_singleton_self db
  case pages => exact Nat.zero_add _
  case small => exact Nat.le_of_lt (file.numPages db.volume).toNat_lt
  case seen => exact ⟨[], numbered_nil file 0, rfl, rfl, List.forall_mem_nil _⟩

variable {file : TableFile} {scan scan' : LiveScan}

theorem Tracks.next (h : scan.Tracks file) {answer : Option Tuple} {cursor : Cursor} {db : Database}
    (hnext : Cursor.next (scan.cursor, scan.db) = .ok answer (cursor, db)) :
    Tracks file { scan with
      cursor, db, returned := scan.returned ++ answer.toList, moments := scan.moments ++ [db] } ∧
      (answer = none → cursor.pagesLeft = 0 ∧ cursor.buffered = []) := by
  have hpresent : db ∈ scan.moments ++ [db] := List.mem_append_right _ (List.mem_singleton_self db)
  obtain ⟨seen, hnumbered, hlength, hall, hseen⟩ := h.seen
  have hearlier : ∀ page ∈ seen, ∃ moment ∈ scan.moments ++ [db], moment.page? page.id = some page := by
    intro page hpage
    obtain ⟨moment, hmoment, hread⟩ := hseen page hpage
    exact ⟨moment, List.mem_append_left _ hmoment, hread⟩
  cases hbuffered : scan.cursor.buffered with
  | cons t ts =>
    have hstep : Cursor.next (scan.cursor, scan.db) =
        .ok (some t) ({ scan.cursor with buffered := ts }, scan.db) := by
      simp only [Cursor.next, hbuffered]
    rw [hstep] at hnext
    cases hnext
    refine ⟨⟨h.labelled, h.home, hpresent, h.pages, h.small, seen, hnumbered, hlength, ?_, hearlier⟩,
      fun hnone => by cases hnone⟩
    rw [hbuffered] at hall
    rw [← hall, List.append_assoc]
    rfl
  | nil =>
    have hpages := h.pages
    have hsmall := h.small
    have hstep : Cursor.advance scan.cursor.file scan.cursor.nextPage scan.cursor.pagesLeft scan.db =
        .ok answer (cursor, db) := by
      rw [← hnext]
      simp only [Cursor.next, hbuffered]
    rw [h.home] at hstep
    have hadvanced := Cursor.advanced h.labelled (by omega) hstep
    obtain ⟨more, hmore, hcount, htuples, hsource⟩ := hadvanced.seen
    rw [← hlength, ← Nat.zero_add seen.length] at hmore
    refine ⟨⟨hadvanced.labelled, hadvanced.home, hpresent, hadvanced.pages.trans h.pages, h.small,
      seen ++ more, hnumbered.append hmore, ?_, ?_, ?_⟩, hadvanced.ended⟩
    · rw [List.length_append, hlength]
      exact hcount
    · rw [hbuffered, List.append_nil] at hall
      rw [List.flatMap_append, ← hall, ← htuples, List.append_assoc]
    · intro page hpage
      rcases List.mem_append.mp hpage with hold | hnew
      · exact hearlier page hold
      · rcases hsource page hnew with hcached | hrest
        · exact ⟨scan.db, List.mem_append_left _ h.present, page?_of_cached hcached⟩
        · exact ⟨db, hpresent, hrest.page?_eq⟩

theorem Tracks.play (h : scan.Tracks file) {event : ScanEvent}
    (hevent : ∀ call, event = .call call → call.EditsTuples) (hplay : scan.play event = some scan') :
    scan'.Tracks file := by
  cases event with
  | next =>
    rw [LiveScan.play] at hplay
    split at hplay
    · next answer cursor db hnext =>
      cases hplay
      exact (h.next hnext).1
    · cases hplay
  | rewind =>
    cases hplay
    have hopened := tracks_opened file h.labelled
    rw [← h.home] at hopened ⊢
    exact hopened
  | call call =>
    cases hplay
    obtain ⟨seen, hnumbered, hlength, hall, hseen⟩ := h.seen
    refine ⟨Call.leaves_labelled (hevent call rfl) h.labelled, h.home, ?_, h.pages, h.small,
      seen, hnumbered, hlength, hall, ?_⟩
    · exact List.mem_append_right _ (List.mem_singleton_self _)
    · intro page hpage
      obtain ⟨moment, hmoment, hread⟩ := hseen page hpage
      exact ⟨moment, List.mem_append_left _ hmoment, hread⟩

theorem Tracks.playAll {events : List ScanEvent}
    (hevents : ∀ call, .call call ∈ events → call.EditsTuples) {scan : LiveScan} (h : scan.Tracks file)
    (hplay : scan.playAll events = some scan') : scan'.Tracks file := by
  induction events generalizing scan with
  | nil =>
    cases hplay
    exact h
  | cons event events ih =>
    obtain ⟨middle, hfirst, hrest⟩ := Option.bind_eq_some_iff.mp hplay
    refine ih (fun call hcall => hevents call (List.mem_cons_of_mem _ hcall)) (h.play ?_ hfirst) hrest
    rintro call rfl
    exact hevents call List.mem_cons_self

theorem tupleAt?_of_page? {db : Database} {record : RecordId} {page : Page}
    (h : db.page? record.page = some page) : db.tupleAt? record = page.tuple? record.slot.toNat := by
  rw [tupleAt?, h, Option.bind_some]

theorem Tracks.ordered (h : scan.Tracks file) : scan.returned.Pairwise Tuple.Before := by
  obtain ⟨seen, hnumbered, hlength, hall, _⟩ := h.seen
  have hpages := h.pages
  have hsmall := h.small
  have hpairwise := hnumbered.pairwise (by omega)
  rw [← hall] at hpairwise
  exact hpairwise.sublist (List.sublist_append_left _ _)

theorem Tracks.stored (h : scan.Tracks file) {t : Tuple} (ht : t ∈ scan.returned) :
    ∃ record, t.record = some record ∧ record.page.table = file.id ∧
      record.page.number.toNat < scan.pages ∧ ∃ db ∈ scan.moments, db.tupleAt? record = some t := by
  obtain ⟨seen, hnumbered, hlength, hall, hseen⟩ := h.seen
  have hpages := h.pages
  have hsmall := h.small
  have hmem : t ∈ seen.flatMap Page.tuples := hall ▸ List.mem_append_left _ ht
  obtain ⟨page, hpage, htuple⟩ := List.mem_flatMap.mp hmem
  obtain ⟨n, hlabelled, _, hbound⟩ := hnumbered.mem (by omega) hpage
  obtain ⟨record, hrecord, hid, hplace⟩ := hlabelled.mem_tuples htuple
  obtain ⟨db, hdb, hread⟩ := hseen page hpage
  rw [hlabelled.identified, ← hid] at hread
  refine ⟨record, hrecord, congrArg PageId.table hid, ?_, db, hdb, ?_⟩
  · rw [hid]
    dsimp only
    omega
  · rwa [tupleAt?_of_page? hread]

theorem Tracks.ended (h : scan.Tracks file) {cursor : Cursor} {db : Database}
    (hnext : Cursor.next (scan.cursor, scan.db) = .ok none (cursor, db)) :
    ∃ seen, Numbered file 0 seen ∧ seen.length = scan.pages ∧ scan.returned = seen.flatMap Page.tuples ∧
      ∀ page ∈ seen, ∃ moment ∈ scan.moments ++ [db], moment.page? page.id = some page := by
  obtain ⟨hlast, hend⟩ := h.next hnext
  obtain ⟨hleft, hbuffered⟩ := hend rfl
  obtain ⟨seen, hnumbered, hlength, hall, hseen⟩ := hlast.seen
  have hpages := hlast.pages
  dsimp only at hpages hlength hall hseen
  rw [hbuffered, List.append_nil, Option.toList_none, List.append_nil] at hall
  exact ⟨seen, hnumbered, by omega, hall, hseen⟩

theorem Tracks.complete (h : scan.Tracks file) {cursor : Cursor} {db : Database}
    (hnext : Cursor.next (scan.cursor, scan.db) = .ok none (cursor, db)) {record : RecordId}
    {row : List Field} (htable : record.page.table = file.id)
    (hnumber : record.page.number.toNat < scan.pages)
    (hkept : ∀ moment ∈ scan.moments ++ [db], (moment.tupleAt? record).map Tuple.fields = some row) :
    (scan.returned.map Tuple.entry).count (some record, row) = 1 := by
  obtain ⟨seen, hnumbered, hlength, hall, hseen⟩ := h.ended hnext
  have hsmall := h.small
  obtain ⟨page, hpage, hlabelled⟩ := hnumbered.exists_labelled htable (by omega)
  obtain ⟨moment, hmoment, hread⟩ := hseen page hpage
  rw [hlabelled.identified] at hread
  have hrow := hkept moment hmoment
  rw [tupleAt?_of_page? hread, Option.map_eq_some_iff] at hrow
  obtain ⟨t, htuple, rfl⟩ := hrow
  have hrecord : t.record = some record := by
    rw [hlabelled.stored _ t htuple, Page.record, hlabelled.identified, UInt16.ofNat_toNat]
  have hmem : t ∈ scan.returned := by
    rw [hall]
    exact List.mem_flatMap.mpr ⟨page, hpage, Page.mem_tuples_iff.mpr ⟨_, htuple⟩⟩
  have hnodup : (scan.returned.map Tuple.entry).Nodup := by
    rw [hall]
    exact List.Pairwise.map _ (fun _ _ hbefore => hbefore.entry_ne) (hnumbered.pairwise (by omega))
  apply List.count_eq_one_of_mem hnodup
  rw [← hrecord]
  exact List.mem_map_of_mem hmem

theorem Tracks.exact (h : scan.Tracks file) : scan.Exact file :=
  ⟨h.ordered, fun _ ht => h.stored ht,
    fun _ _ hnext _ _ htable hnumber hkept => h.complete hnext htable hnumber hkept⟩

end LiveScan

namespace Database

/-- A cursor that is opened over any file after any calls, at any capacity of the pool, returns tuples in
the order of their records and each as it was stored since then, and misses none that stayed. -/
theorem live_scan {start : Database} (h : start.Fresh) {calls : List Call}
    (hcalls : ∀ call ∈ calls, call.EditsTuples) (file : TableFile) {events : List ScanEvent}
    (hevents : ∀ call, .call call ∈ events → call.EditsTuples) {scan : LiveScan}
    (hplay : (LiveScan.opened file (run calls start)).playAll events = some scan) :
    scan.Exact file := by
  have hlabelled : (run calls start).Labelled :=
    run_induction (fun call hcall _ hdb => Call.leaves_labelled (hcalls call hcall) hdb) h.labelled
  exact ((LiveScan.tracks_opened file hlabelled).playAll hevents hplay).exact

/-- With one frame: the second row is deleted while the cursor is on its page, and a new row takes its
slot behind the cursor. -/
theorem live_scan_one_frame :
    let schema : Schema := ⟨[{ type := .integer }], List.cons_ne_nil _ _⟩
    let file : TableFile := ⟨0, ⟨"t", 9⟩, schema, by decide, by decide⟩
    let start := withTable { pageSize := 9, poolPages := 1 } "t" schema
    let insert (value : Int32) : Call := .insert ⟨1⟩ file.id ⟨schema, [.int value], none⟩
    let delete : Call := .delete ⟨2⟩ ⟨schema, [.int 2], some ⟨⟨file.id, 0⟩, 1⟩⟩
    let calls := [insert 1, insert 2, insert 3]
    let events : List ScanEvent := [.next, .call delete, .next, .call (insert 4), .next]
    start.Fresh ∧ (∀ call ∈ calls, call.EditsTuples) ∧ (∀ call, .call call ∈ events → call.EditsTuples) ∧
      start.catalog.file file.id = .ok file ∧
      ∃ scan, (LiveScan.opened file (run calls start)).playAll events = some scan ∧ scan.Exact file ∧
        scan.returned.map Tuple.entry = [(some ⟨⟨file.id, 0⟩, 0⟩, [.int 1]), (some ⟨⟨file.id, 0⟩, 1⟩, [.int 2]),
          (some ⟨⟨file.id, 1⟩, 0⟩, [.int 3])] ∧
        (scan.db.tupleAt? ⟨⟨file.id, 0⟩, 1⟩).map Tuple.fields = some [.int 4] := by
  intro schema file start insert delete calls events
  have hfresh : start.Fresh := fresh_withTable _ _ _
  have hbuilt (value : Int32) : (⟨schema, [.int value], none⟩ : Tuple).Built := by
    have hfields : Tuple.ofFields schema [.int value] = .ok ⟨schema, [.int value], none⟩ := rfl
    exact Tuple.Built.ofFields hfields
  have hcalls : ∀ call ∈ calls, call.EditsTuples := by
    simp [calls, insert, Call.EditsTuples, hbuilt]
  have hevents : ∀ call, .call call ∈ events → call.EditsTuples := by
    simp [events, insert, delete, Call.EditsTuples, hbuilt]
  have hplayed : ((LiveScan.opened file (run calls start)).playAll events).map (fun scan =>
      (scan.returned.map Tuple.entry, (scan.db.tupleAt? ⟨⟨file.id, 0⟩, 1⟩).map Tuple.fields)) =
      some ([(some ⟨⟨file.id, 0⟩, 0⟩, [.int 1]), (some ⟨⟨file.id, 0⟩, 1⟩, [.int 2]),
        (some ⟨⟨file.id, 1⟩, 0⟩, [.int 3])], some [.int 4]) := by decide +kernel
  obtain ⟨scan, hplay, hseen⟩ := Option.map_eq_some_iff.mp hplayed
  rw [Prod.mk.injEq] at hseen
  exact ⟨hfresh, hcalls, hevents, by decide +kernel, scan, hplay, live_scan hfresh hcalls file hevents hplay,
    hseen.1, hseen.2⟩

end Database
end RowStore

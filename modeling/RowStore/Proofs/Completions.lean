import Mathlib.Control.Monad.Basic
import RowStore.Proofs.Durability
import RowStore.Proofs.Flushes
import RowStore.Proofs.Requests

/-!
# What the end of a transaction touches

Both ends of a transaction go through the pages that it marked last, in whatever order, while they change
the marks, the cache and the queue that the pages were selected by. A commit that returns has written
each of these pages once, in its own place, and taken its mark; an abort has taken them out of the cache
and the queue. Nothing else is touched, so the order does not matter.
-/
namespace RowStore
open Relation

namespace Bytes

theorem getElem?_of_lt {file : Bytes} {i : Nat} (h : i < file.length) : file[i]? = some (byteAt file i) := by
  rw [byteAt, List.getElem?_eq_getElem h]
  rfl

theorem getElem?_writeAt_of_outside {file data : Bytes} {offset i : Nat} (hdata : data ≠ [])
    (hinside : offset ≤ file.length) (hout : ¬ (offset ≤ i ∧ i < offset + data.length)) :
    (writeAt file offset data)[i]? = file[i]? := by
  have hlength := length_writeAt file offset data hdata
  have hbyte := byteAt_writeAt file offset data i
  rw [if_neg hout] at hbyte
  by_cases hi : i < file.length
  · rw [getElem?_of_lt hi, getElem?_of_lt (by rw [hlength]; omega), hbyte]
  · have hend : (writeAt file offset data).length ≤ i := by omega
    rw [List.getElem?_eq_none hend, List.getElem?_eq_none (Nat.le_of_not_lt hi)]

end Bytes

def Traffic.countWrites (traffic : Traffic) (count : Nat) : Traffic :=
  { traffic with writes := traffic.writes + UInt32.ofNat count }

theorem Traffic.countWrites_zero (traffic : Traffic) : traffic.countWrites 0 = traffic :=
  congrArg (Traffic.mk _) (UInt32.add_zero _)

theorem Traffic.countWrites_succ (traffic : Traffic) (count : Nat) :
    traffic.countWrites (count + 1) = traffic.countWrite.countWrites count := by
  rw [countWrites, UInt32.ofNat_add, UInt32.add_comm (UInt32.ofNat count), ← UInt32.add_assoc]
  rfl

/-- The page has its place in the file around this byte. -/
def Page.Covers (page : Page) (name : String) (i : Nat) : Prop :=
  page.id.table = .file name ∧ page.id.number.toNat * page.size ≤ i ∧
    i < page.id.number.toNat * page.size + page.size

namespace Database
variable {db db' : Database}

/-- The file that is registered for the page has that serial number. -/
def stowsIn (db : Database) (serial : Nat) (id : PageId) : Bool :=
  (db.catalog.file id.table).toOption.any fun file => file.serial == serial

theorem stowsIn_of_registered {id : PageId} {file : TableFile} (h : db.catalog.file id.table = .ok file)
    (serial : Nat) : db.stowsIn serial id = (file.serial == serial) := by
  rw [stowsIn, h]
  rfl

theorem WriteBack.bytes_outside {id : PageId} (w : WriteBack db id) (h : db.Orderly) {name : String}
    {i : Nat} (hout : ¬ w.page.Covers name i) :
    (w.result.volume.bytes name)[i]? = (db.volume.bytes name)[i]? := by
  have hsize := w.page_size h
  change ((w.file.pages.replace db.volume w.page.id.number w.image).bytes name)[i]? = _
  rw [PageFile.bytes_replace]
  split
  · next hname =>
    have htable : w.page.id.table = .file name := by rw [w.home, hname]; rfl
    have hcounted : w.page.id.number.toNat * w.page.size < db.span w.page.id.table := by
      have hwithin := h.cached id w.page w.cached
      rw [hwithin.identified]
      exact hwithin.counted
    rw [htable, span, ← Contents.length_toBytes] at hcounted
    have hoffset : w.file.pages.offset w.page.id.number = w.page.id.number.toNat * w.page.size := by
      rw [hsize]
      rfl
    have hlength : w.image.length = w.page.size := w.length.trans hsize.symm
    apply Bytes.getElem?_writeAt_of_outside
    · rw [← List.length_pos_iff, w.length]
      exact w.file.pageSize_pos
    · rw [hoffset]
      exact Nat.le_of_lt hcounted
    · rw [hoffset, hlength]
      exact fun hrange => hout ⟨htable, hrange⟩
  · rfl

theorem image_of_writeAll {ids : List PageId} {db : Database} (h : db.Orderly)
    (hwrite : writeAll ids db = .ok () db') {file : TableFile}
    (hfile : db.catalog.file file.id = .ok file) {n : PageNo} (hout : (⟨file.id, n⟩ : PageId) ∉ ids) :
    file.pages.image db'.volume n = file.pages.image db.volume n := by
  induction ids generalizing db with
  | nil =>
    cases hwrite
    rfl
  | cons id ids ih =>
    rw [List.mem_cons, not_or] at hout
    rw [writeAll_cons, bind_eq_ok] at hwrite
    obtain ⟨wrote, middle, hback, hrest⟩ := hwrite
    rcases writeBack_cases id db with ⟨hnone, _⟩ | ⟨w, hdone⟩ | ⟨e, herror⟩
    · rw [hnone] at hback
      cases hback
      exact ih h hrest hfile hout.2
    · rw [hdone] at hback
      cases hback
      rw [ih (h.turnover (.writeBack w)) hrest hfile hout.2, w.image_other h _ hout.1]
      intro hid
      rw [h.file_eq hfile w.registered hid]
    · rw [herror] at hback
      cases hback

/-- What writing back these dirty pages, each once, has done. -/
structure Written (ids : List PageId) (db db' : Database) : Prop where
  outline : db'.pool.outline = db.pool.outline
  tables : db'.catalog = db.catalog ∧ db'.config = db.config ∧ db'.nextTxn = db.nextTxn
  images : ∀ id ∈ ids, ∀ page, db.pool.page? id = some page → ∃ file image,
    db.catalog.file id.table = .ok file ∧ page.toImage = .ok image ∧
      file.pages.image db'.volume id.number = image
  bytes : ∀ name i,
    (∀ id ∈ ids, ∀ page, db.pool.page? id = some page → ¬ page.Covers name i) →
      (db'.volume.bytes name)[i]? = (db.volume.bytes name)[i]?
  traffic : ∀ serial : Nat, db'.traffic[serial]? = (db.traffic[serial]?).map fun traffic =>
    traffic.countWrites (ids.countP (db.stowsIn serial))

theorem WriteBack.page?_of_ne {id other : PageId} (w : WriteBack db id) (h : other ≠ id) :
    w.result.pool.page? other = db.pool.page? other := by
  rw [w.page?_result, if_neg h]

theorem Written.cons {id : PageId} {ids : List PageId} (h : db.Orderly) (w : WriteBack db id)
    (hout : id ∉ ids) (hwrite : writeAll ids w.result = .ok () db') (hrest : Written ids w.result db') :
    Written (id :: ids) db db' := by
  have hidentified := (h.cached id w.page w.cached).identified
  have hregistered := w.registered
  rw [hidentified] at hregistered
  have hlater (other : PageId) (hmem : other ∈ ids) :
      w.result.pool.page? other = db.pool.page? other :=
    w.page?_of_ne fun heq => hout (heq ▸ hmem)
  constructor
  case outline => exact hrest.outline.trans w.outline
  case tables => exact hrest.tables
  case images =>
    intro other hmem page hpage
    rcases List.mem_cons.mp hmem with rfl | hmem
    · rw [w.cached] at hpage
      cases hpage
      refine ⟨w.file, w.image, hregistered, w.encoded, ?_⟩
      have hplace := w.place h
      rw [hidentified] at hplace
      rw [image_of_writeAll (h.turnover (.writeBack w)) hwrite (h.registered hregistered)
        (by rwa [hplace])]
      change w.file.pages.image (w.file.pages.replace db.volume w.page.id.number w.image) _ = _
      rw [PageFile.image_replace _ _ _ _ w.length, hidentified, if_pos rfl]
    · rw [← hlater other hmem] at hpage
      exact hrest.images other hmem page hpage
  case bytes =>
    intro name i houtside
    rw [hrest.bytes name i, w.bytes_outside h (houtside id List.mem_cons_self w.page w.cached)]
    intro other hmem page hpage
    rw [hlater other hmem] at hpage
    exact houtside other (List.mem_cons_of_mem _ hmem) page hpage
  case traffic =>
    intro serial
    have hstows : w.result.stowsIn serial = db.stowsIn serial := rfl
    have hfirst : w.result.traffic[serial]? = (db.traffic[serial]?).map fun traffic =>
        if w.file.serial = serial then traffic.countWrite else traffic := List.getElem?_modify _ _ _ _
    rw [hrest.traffic, hfirst, hstows, Option.map_map, List.countP_cons, stowsIn_of_registered hregistered]
    congr 1
    funext traffic
    rw [Function.comp_apply]
    by_cases hserial : w.file.serial = serial
    · rw [if_pos hserial, if_pos (beq_iff_eq.mpr hserial), Traffic.countWrites_succ]
    · rw [if_neg hserial, if_neg (by rwa [beq_iff_eq]), Nat.add_zero]

theorem written_of_writeAll {ids : List PageId} {db : Database} (h : db.Orderly) (hnodup : ids.Nodup)
    (hdirty : ∀ id ∈ ids, ∃ page, db.pool.page? id = some page ∧ page.isDirty = true)
    (hwrite : writeAll ids db = .ok () db') : Written ids db db' := by
  induction ids generalizing db with
  | nil =>
    cases hwrite
    refine ⟨rfl, ⟨rfl, rfl, rfl⟩, fun id hmem => (List.not_mem_nil hmem).elim, fun _ _ _ => rfl, ?_⟩
    intro serial
    simp only [List.countP_nil, Traffic.countWrites_zero, Option.map_id']
  | cons id ids ih =>
    rw [List.nodup_cons] at hnodup
    rw [writeAll_cons, bind_eq_ok] at hwrite
    obtain ⟨wrote, middle, hback, hrest⟩ := hwrite
    obtain ⟨page, hcached, hmark⟩ := hdirty id List.mem_cons_self
    rcases writeBack_cases id db with ⟨_, hclean⟩ | ⟨w, hdone⟩ | ⟨e, herror⟩
    · rw [hclean page hcached] at hmark
      cases hmark
    · rw [hdone] at hback
      cases hback
      apply Written.cons h w hnodup.1 hrest
      refine ih (h.turnover (.writeBack w)) hnodup.2 (fun other hmem => ?_) hrest
      rw [w.page?_of_ne fun heq => hnodup.1 (heq ▸ hmem)]
      exact hdirty other (List.mem_cons_of_mem _ hmem)
    · rw [herror] at hback
      cases hback

/-- What a commit has done when it returns. -/
structure Committed (txn : TransactionId) (db db' : Database) : Prop where
  /-- The same pages are cached, in the same frames and in the same order. -/
  outline : db'.pool.outline = db.pool.outline
  tables : db'.catalog = db.catalog ∧ db'.config = db.config ∧ db'.nextTxn = db.nextTxn
  /-- The pages of the transaction have lost their marks, and all other pages are as they were. -/
  pages : ∀ id, db'.pool.page? id = (db.pool.page? id).map fun page =>
    if page.dirtiedBy = some txn then page.markClean else page
  images : ∀ id page, db.pool.page? id = some page → page.dirtiedBy = some txn → ∃ file image,
    db.catalog.file id.table = .ok file ∧ page.toImage = .ok image ∧
      file.pages.image db'.volume id.number = image
  /-- No file has changed anywhere else, or become longer than a page of the transaction makes it. -/
  bytes : ∀ name i,
    (∀ id page, db.pool.page? id = some page → page.dirtiedBy = some txn → ¬ page.Covers name i) →
      (db'.volume.bytes name)[i]? = (db.volume.bytes name)[i]?
  /-- Nothing was read, and each file has been written once for each of its pages among them. -/
  traffic : ∀ serial : Nat, db'.traffic[serial]? = (db.traffic[serial]?).map fun traffic =>
    traffic.countWrites ((db.pool.dirtiedBy txn).countP fun entry => db.stowsIn serial entry.1)

theorem committed_of_writeAll (h : db.Orderly) {txn : TransactionId} {ids : List PageId}
    (hids : ids.Perm ((db.pool.dirtiedBy txn).map Prod.fst)) (hwrite : writeAll ids db = .ok () db') :
    Committed txn db db' := by
  have hmem (id : PageId) :
      id ∈ ids ↔ ∃ page, db.pool.page? id = some page ∧ page.dirtiedBy = some txn := by
    rw [hids.mem_iff, mem_dirtiedBy_iff h.inOrder]
  have hnodup : ids.Nodup := by
    rw [hids.nodup_iff]
    exact h.inOrder.nodup_keys.sublist (List.filter_sublist.map _)
  have hdirty (id : PageId) (hid : id ∈ ids) :
      ∃ page, db.pool.page? id = some page ∧ page.isDirty = true := by
    obtain ⟨page, hcached, hmark⟩ := (hmem id).mp hid
    exact ⟨page, hcached, by rw [Page.isDirty, hmark]; rfl⟩
  have hwritten := written_of_writeAll h hnodup hdirty hwrite
  constructor
  case outline => exact hwritten.outline
  case tables => exact hwritten.tables
  case pages =>
    intro id
    rw [page?_of_writeAll hwrite]
    cases hcached : db.pool.page? id with
    | none => rw [Option.map_none, Option.map_none, ite_self]
    | some page =>
      have hid : id ∈ ids ↔ page.dirtiedBy = some txn := by
        rw [hmem, hcached]
        constructor
        · rintro ⟨found, hfound, hmark⟩
          cases hfound
          exact hmark
        · exact fun hmark => ⟨page, rfl, hmark⟩
      simp only [hid, Option.map_some]
      split <;> rfl
  case images =>
    intro id page hcached hmark
    exact hwritten.images id ((hmem id).mpr ⟨page, hcached, hmark⟩) page hcached
  case bytes =>
    intro name i houtside
    apply hwritten.bytes
    intro id hid page hcached
    obtain ⟨found, hfound, hmark⟩ := (hmem id).mp hid
    rw [hcached] at hfound
    cases hfound
    exact houtside id page hcached hmark
  case traffic =>
    intro serial
    rw [hwritten.traffic, hids.countP_eq, List.countP_map]
    rfl

/-- What an abort has done. -/
structure Aborted (txn : TransactionId) (db db' : Database) : Prop where
  files : db'.volume = db.volume ∧ db'.traffic = db.traffic
  tables : db'.catalog = db.catalog ∧ db'.config = db.config ∧ db'.nextTxn = db.nextTxn
  capacity : db'.pool.capacity = db.pool.capacity
  /-- The frames of the other pages are left, with their marks and in their order. -/
  frames : db'.pool.frames.entries =
    db.pool.frames.entries.filter fun entry => entry.2.page.dirtiedBy != some txn
  order : db'.pool.queue.order = db.pool.queue.order.filter fun id =>
    (db.pool.page? id).all fun page => page.dirtiedBy != some txn

theorem foldl_without_entries (ids : List PageId) (db : Database) :
    (ids.foldl without db).pool.frames.entries =
      db.pool.frames.entries.filter fun entry => decide (entry.1 ∉ ids) := by
  induction ids generalizing db with
  | nil => exact (List.filter_eq_self.mpr fun _ _ => decide_eq_true List.not_mem_nil).symm
  | cons id ids ih =>
    rw [List.foldl_cons, ih]
    change (db.pool.frames.entries.filter _).filter _ = _
    rw [List.filter_filter]
    apply List.filter_congr
    intro entry _
    rw [← Bool.decide_and]
    simp only [List.mem_cons, not_or, and_comm, ne_eq]

theorem foldl_without_rest (ids : List PageId) (db : Database) :
    ∃ pool, ids.foldl without db = { db with pool } ∧ pool.capacity = db.pool.capacity := by
  induction ids generalizing db with
  | nil => exact ⟨db.pool, rfl, rfl⟩
  | cons id ids ih =>
    obtain ⟨pool, hpool, hcapacity⟩ := ih (db.without id)
    exact ⟨pool, hpool, hcapacity⟩

theorem aborted_of_discards (h : db.Orderly) {txn : TransactionId} {ids : List PageId}
    (hids : ids.Perm ((db.pool.dirtiedBy txn).map Prod.fst)) :
    Aborted txn db (ids.foldl without db) := by
  have hmem (entry : PageId × Frame) (hentry : entry ∈ db.pool.frames.entries) :
      decide (entry.1 ∉ ids) = (entry.2.page.dirtiedBy != some txn) := by
    have hmark : entry.1 ∈ ids ↔ entry.2.page.dirtiedBy = some txn := by
      simp [hids.mem_iff, mem_dirtiedBy_iff h.inOrder, h.inOrder.page?_of_mem hentry]
    rw [Bool.eq_iff_iff, decide_eq_true_eq, bne_iff_ne, ne_eq, hmark]
  have hframes := foldl_without_entries ids db
  rw [List.filter_congr hmem] at hframes
  obtain ⟨pool, hpool, hcapacity⟩ := foldl_without_rest ids db
  refine ⟨?_, ?_, ?_, hframes, ?_⟩
  · rw [hpool]
    exact ⟨rfl, rfl⟩
  · rw [hpool]
    exact ⟨rfl, rfl, rfl⟩
  · rw [hpool]
    exact hcapacity
  · -- The queue holds the keys of the frames, before and after.
    rw [← (h.foldl_without ids).inOrder.keys, ← h.inOrder.keys, Assoc.keys, Assoc.keys, hframes,
      List.filter_map]
    refine congrArg _ (List.filter_congr fun entry hentry => ?_)
    rw [Function.comp_apply, h.inOrder.page?_of_mem hentry]
    rfl

theorem Orderly.map_id_dirtiedBy (h : db.Orderly) (txn : TransactionId) :
    ((db.pool.dirtiedBy txn).map fun entry => entry.2.page.id) = (db.pool.dirtiedBy txn).map Prod.fst := by
  apply List.map_congr_left
  intro entry hentry
  have hcached := h.inOrder.page?_of_mem (List.mem_filter.mp hentry).1
  exact (h.cached _ _ hcached).identified

def lastBy (db : Database) (txn : TransactionId) (id : PageId) : Bool :=
  (db.pool.page? id).any fun page => page.dirtiedBy == some txn

/-- A flush that comes to the pages in an order of its own and looks at the mark of a page only when it
has come to it. -/
def flushVisiting (txn : TransactionId) (ids : List PageId) : Db Unit := ids.forM fun id => do
  if (← get).lastBy txn id then
    let _ ← writeBack id

theorem flushVisiting_cons (txn : TransactionId) (id : PageId) (ids : List PageId) (db : Database) :
    flushVisiting txn (id :: ids) db =
      if db.lastBy txn id then (writeBack id >>= fun _ => flushVisiting txn ids) db
      else flushVisiting txn ids db := by
  change ((do if (← get).lastBy txn id then let _ ← writeBack id) >>= fun _ =>
    flushVisiting txn ids) db = _
  rw [Db.bind_run, Db.bind_run, Db.get_run]
  dsimp only
  by_cases hlast : db.lastBy txn id = true
  · rw [if_pos hlast, if_pos hlast, Db.bind_run, Db.bind_run]
    cases writeBack id db <;> rfl
  · rw [if_neg hlast, if_neg hlast]
    rfl

/-- No visit changes the mark of another page, so the marks may as well be looked at before the first. -/
theorem flushVisiting_eq (txn : TransactionId) {ids : List PageId} (hnodup : ids.Nodup) (db : Database) :
    flushVisiting txn ids db = writeAll (ids.filter (db.lastBy txn)) db := by
  induction ids generalizing db with
  | nil => rfl
  | cons id ids ih =>
    rw [List.nodup_cons] at hnodup
    rw [flushVisiting_cons]
    by_cases hlast : db.lastBy txn id = true
    · rw [if_pos hlast, List.filter_cons_of_pos hlast, writeAll_cons, Db.bind_run, Db.bind_run]
      cases hback : writeBack id db with
      | error e middle => rfl
      | ok wrote middle =>
        dsimp only
        rw [ih hnodup.2]
        congr 1
        apply List.filter_congr
        intro other hmem
        have hne : other ≠ id := fun heq => hnodup.1 (heq ▸ hmem)
        rw [lastBy, page?_of_writeBack hback, if_neg hne, lastBy]
    · rw [if_neg hlast, List.filter_cons_of_neg hlast, ih hnodup.2]

theorem Orderly.filter_lastBy (h : db.Orderly) (txn : TransactionId) :
    db.pool.frames.keys.filter (db.lastBy txn) = (db.pool.dirtiedBy txn).map Prod.fst := by
  rw [Assoc.keys, List.filter_map, Pool.dirtiedBy]
  refine congrArg _ (List.filter_congr fun entry hentry => ?_)
  rw [Function.comp_apply, lastBy, h.inOrder.page?_of_mem hentry]
  rfl

/-- What the end of the transaction does, whichever it is, and in whatever order the pages are visited. -/
structure EndsApart (db : Database) (txn : TransactionId) : Prop where
  flush : ∀ (ids : List PageId) db', ids.Perm db.pool.frames.keys → flushVisiting txn ids db = .ok () db' →
    Committed txn db db'
  flushTransaction : ∀ db', flushTransaction txn db = .ok () db' → Committed txn db db'
  commit : ∀ db', complete txn true db = .ok () db' → Committed txn db db'
  discards : ∀ ids : List PageId, ids.Perm ((db.pool.dirtiedBy txn).map fun entry => entry.2.page.id) →
    ∃ db', ids.forM discard db = .ok () db' ∧ Aborted txn db db'
  abort : ∃ db', complete txn false db = .ok () db' ∧ Aborted txn db db'

/-- In every state that requests lead to, with pages that any mixture of transactions has changed, a
commit that returns touches exactly the pages that its transaction changed last, and so does an abort,
which always returns. -/
theorem endsApart_of_reachable (h : db.Reachable) (txn : TransactionId) : db.EndsApart txn := by
  have horderly := h.orderly
  have hflush (db' : Database) (hwrite : writeAll ((db.pool.dirtiedBy txn).map Prod.fst) db = .ok () db') :
      Committed txn db db' :=
    committed_of_writeAll horderly (.refl _) hwrite
  have hdiscards (ids : List PageId)
      (hids : ids.Perm ((db.pool.dirtiedBy txn).map fun entry => entry.2.page.id)) :
      ∃ db', ids.forM discard db = .ok () db' ∧ Aborted txn db db' := by
    rw [horderly.map_id_dirtiedBy] at hids
    exact ⟨_, forM_discard ids db, aborted_of_discards horderly hids⟩
  constructor
  case flush =>
    intro ids db' hids hvisit
    have hnodup : ids.Nodup := hids.nodup_iff.mpr horderly.inOrder.nodup_keys
    rw [flushVisiting_eq txn hnodup] at hvisit
    apply committed_of_writeAll horderly _ hvisit
    rw [← horderly.filter_lastBy]
    exact hids.filter _
  case flushTransaction => exact hflush
  case commit => exact hflush
  case discards => exact hdiscards
  case abort => exact hdiscards _ (.refl _)

/-- One of three pages was changed last by another transaction, and the flush goes from the back. -/
theorem endsApart_of_reachable_three_pages :
    let schema : Schema := ⟨[{ type := .integer }], List.cons_ne_nil _ _⟩
    let calls : List Call := [.insert ⟨1⟩ (.file "t") ⟨schema, [.int 3], none⟩,
      .insert ⟨2⟩ (.file "t") ⟨schema, [.int 4], none⟩, .insert ⟨1⟩ (.file "t") ⟨schema, [.int 5], none⟩]
    let db := run calls (withTable { pageSize := 8, poolPages := 3 } "t" schema)
    db.Reachable ∧
      (db.pool.dirtiedBy ⟨1⟩).map Prod.fst = [⟨.file "t", 0⟩, ⟨.file "t", 2⟩] ∧
      db.pool.frames.keys.reverse.Perm db.pool.frames.keys ∧
      (∃ db', flushVisiting ⟨1⟩ db.pool.frames.keys.reverse db = .ok () db') ∧ db.EndsApart ⟨1⟩ := by
  intro schema calls db
  have hcalls : ∀ call ∈ calls, call.Proper := by
    simp [calls, schema, Call.Proper, Call.Edits, Tuple.built_integer]
  have hreachable : db.Reachable := (reachable_withTable _ _ _).run hcalls
  have hflush : outcome (flushVisiting ⟨1⟩ db.pool.frames.keys.reverse db) = .ok () := by decide +kernel
  exact ⟨hreachable, by decide +kernel, List.reverse_perm _, exists_ok_of_outcome hflush,
    endsApart_of_reachable hreachable ⟨1⟩⟩

end Database
end RowStore

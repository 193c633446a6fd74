import Mathlib.Logic.Relation
import RowStore.Proofs.Runs

/-!
# The order of the pool

The pool holds frames for exactly the queued pages, in the order in which they were loaded, and never
more than fit. A page that is not cached comes in at the back, with one read; into a full pool only
after the front page has gone, which is written first exactly if it is dirty. Nothing else changes
the queue except by taking pages out, so frames that stay keep their order.
-/
namespace RowStore
open Relation

namespace Pool

/-- The pool without the contents of its pages. -/
def outline (pool : Pool) : Nat × List PageId × Nat × List (PageId × Nat) :=
  (pool.capacity, pool.queue.order, pool.nextSerial,
    pool.frames.entries.map fun entry => (entry.1, entry.2.serial))

/-- The frames are held for the queued pages, in order, and were loaded in this order. -/
structure InOrder (pool : Pool) : Prop where
  keys : pool.frames.keys = pool.queue.order
  nodup : pool.queue.order.Nodup
  size_le : pool.queue.order.length ≤ pool.capacity
  serials : (pool.frames.values.map Frame.serial).Pairwise (· < ·)
  serials_lt : ∀ serial ∈ pool.frames.values.map Frame.serial, serial < pool.nextSerial

theorem inOrder_empty (capacity : Nat) : ({ capacity } : Pool).InOrder := by
  constructor <;> simp [Assoc.keys, Assoc.values]

theorem InOrder.nodup_keys {pool : Pool} (h : pool.InOrder) : pool.frames.keys.Nodup := by
  rw [h.keys]
  exact h.nodup

theorem InOrder.page?_of_mem {pool : Pool} (h : pool.InOrder) {entry : PageId × Frame}
    (hentry : entry ∈ pool.frames.entries) : pool.page? entry.1 = some entry.2.page := by
  rw [page?, Assoc.get?_of_mem_entries h.nodup_keys hentry, Option.map_some]

theorem InOrder.page?_of_no_frames {pool : Pool} (h : pool.InOrder) (hnone : pool.capacity = 0)
    (id : PageId) : pool.page? id = none := by
  have hkeys : pool.frames.keys = [] := by
    rw [h.keys]
    exact List.length_eq_zero_iff.mp (Nat.le_zero.mp (hnone ▸ h.size_le))
  rw [page?, (Assoc.get?_eq_none_iff _ _).mpr (hkeys ▸ List.not_mem_nil), Option.map_none]

theorem InOrder.size_eq {pool : Pool} (h : pool.InOrder) : pool.size = pool.queue.order.length := by
  rw [← h.keys, Assoc.keys, List.length_map]
  rfl

private theorem keys_eq_outline (pool : Pool) :
    pool.frames.keys = pool.outline.2.2.2.map Prod.fst := by
  simp [outline, Assoc.keys, Function.comp_def]

private theorem serials_eq_outline (pool : Pool) :
    pool.frames.values.map Frame.serial = pool.outline.2.2.2.map Prod.snd := by
  simp [outline, Assoc.values, Function.comp_def]

/-- The order does not depend on the contents of the pages. -/
theorem InOrder.of_outline {pool other : Pool} (h : pool.InOrder)
    (hsame : other.outline = pool.outline) : other.InOrder := by
  have hcapacity : other.capacity = pool.capacity := congrArg Prod.fst hsame
  have hqueue : other.queue.order = pool.queue.order := congrArg (fun o => o.2.1) hsame
  have hserial : other.nextSerial = pool.nextSerial := congrArg (fun o => o.2.2.1) hsame
  constructor
  · rw [keys_eq_outline, hsame, ← keys_eq_outline, hqueue, h.keys]
  · rw [hqueue]
    exact h.nodup
  · rw [hqueue, hcapacity]
    exact h.size_le
  · rw [serials_eq_outline, hsame, ← serials_eq_outline]
    exact h.serials
  · rw [serials_eq_outline, hsame, ← serials_eq_outline, hserial]
    exact h.serials_lt

@[simp] theorem outline_modify (pool : Pool) (id : PageId) (change : Page → Page) :
    (pool.modify id change).outline = pool.outline := by
  simp only [outline, modify, Assoc.modify, List.map_map, Prod.mk.injEq, true_and]
  apply List.map_congr_left
  intro entry _
  simp only [Function.comp]
  split <;> rfl

theorem InOrder.drop {pool : Pool} (h : pool.InOrder) (id : PageId) : (pool.drop id).InOrder := by
  have hsub : (pool.drop id).frames.entries.Sublist pool.frames.entries := List.filter_sublist
  constructor
  · rw [show (pool.drop id).frames.keys = _ from Assoc.keys_erase _ _, h.keys]
    exact (Fifo.order_remove h.nodup id).symm
  · exact Fifo.nodup_remove h.nodup id
  · exact Nat.le_trans List.erase_sublist.length_le h.size_le
  · exact h.serials.sublist ((hsub.map _).map _)
  · intro serial hmem
    exact h.serials_lt serial (((hsub.map _).map _).subset hmem)

theorem order_install {pool : Pool} (h : pool.InOrder) {page : Page}
    (hmiss : pool.frames.get? page.id = none) :
    (pool.install page).2.queue.order = pool.queue.order ++ [page.id] := by
  have hout : page.id ∉ pool.queue.order := by
    rw [← h.keys]
    exact (Assoc.get?_eq_none_iff _ _).mp hmiss
  simp only [install, Fifo.insert, hout, if_false]

theorem InOrder.install {pool : Pool} (h : pool.InOrder) {page : Page}
    (hmiss : pool.frames.get? page.id = none) (hroom : pool.size < pool.capacity) :
    (pool.install page).2.InOrder := by
  have hout : page.id ∉ pool.queue.order := by
    rw [← h.keys]
    exact (Assoc.get?_eq_none_iff _ _).mp hmiss
  have hentries := Assoc.entries_insert_of_get?_eq_none hmiss ⟨pool.nextSerial, page⟩
  have hserials : (pool.install page).2.frames.values.map Frame.serial =
      pool.frames.values.map Frame.serial ++ [pool.nextSerial] := by
    simp only [Pool.install, Assoc.values, hentries, List.map_append, List.map_cons, List.map_nil]
  constructor
  · rw [order_install h hmiss, ← h.keys]
    simp only [Pool.install, Assoc.keys, hentries, List.map_append, List.map_cons, List.map_nil]
  · rw [order_install h hmiss, List.nodup_append]
    refine ⟨h.nodup, by simp, fun a ha b hb hab => ?_⟩
    rw [List.mem_singleton] at hb
    exact hout (hb ▸ hab ▸ ha)
  · rw [order_install h hmiss, List.length_append, List.length_singleton]
    rw [h.size_eq] at hroom
    exact hroom
  · rw [hserials, List.pairwise_append]
    refine ⟨h.serials, List.pairwise_singleton _ _, fun a ha b hb => ?_⟩
    rw [List.mem_singleton] at hb
    rw [hb]
    exact h.serials_lt a ha
  · intro serial hmem
    rw [hserials, List.mem_append, List.mem_singleton] at hmem
    rcases hmem with hmem | rfl
    · exact Nat.lt_succ_of_lt (h.serials_lt serial hmem)
    · exact Nat.lt_succ_self _

theorem InOrder.ready_of_drop {pool : Pool} (h : pool.InOrder) {victim id : PageId}
    {rest : List PageId} (hfront : pool.queue.order = victim :: rest)
    (hfull : pool.queue.order.length = pool.capacity) (hmiss : pool.frames.get? id = none) :
    (pool.drop victim).queue.order = rest ∧ (pool.drop victim).size < (pool.drop victim).capacity ∧
      (pool.drop victim).frames.get? id = none := by
  have horder : (pool.drop victim).queue.order = rest := by
    change pool.queue.order.erase victim = rest
    rw [hfront, List.erase_cons_head]
  refine ⟨horder, ?_, ?_⟩
  · rw [(h.drop victim).size_eq, horder]
    change rest.length < pool.capacity
    rw [← hfull, hfront, List.length_cons]
    exact Nat.lt_succ_self _
  · change (pool.frames.erase victim).get? id = none
    rw [Assoc.get?_erase, hmiss, ite_self]

/-- In the list `a` stands before `b`. -/
def Before (a b : PageId) (order : List PageId) : Prop := [a, b].Sublist order

theorem InOrder.before_iff {pool : Pool} (h : pool.InOrder) {a b : PageId} {fa fb : Frame}
    (ha : pool.frames.get? a = some fa) (hb : pool.frames.get? b = some fb) :
    Before a b pool.queue.order ↔ fa.serial < fb.serial := by
  have hnodup := h.nodup_keys
  have hpairs : pool.frames.entries.Pairwise fun x y => x.2.serial < y.2.serial := by
    have hserials := h.serials
    rwa [Assoc.values, List.map_map, List.pairwise_map] at hserials
  rw [Before, ← h.keys, Assoc.keys, List.sublist_map_iff]
  constructor
  · rintro ⟨pair, hpair, heq⟩
    obtain ⟨x, y, rfl⟩ : ∃ x y, pair = [x, y] := by
      rcases pair with _ | ⟨x, _ | ⟨y, _ | ⟨z, rest⟩⟩⟩ <;> simp at heq
      exact ⟨x, y, rfl⟩
    simp only [List.map_cons, List.map_nil, List.cons.injEq, and_true] at heq
    obtain ⟨rfl, rfl⟩ := heq
    have hx := Assoc.get?_of_mem_entries hnodup (hpair.subset (List.mem_cons_self : x ∈ [x, y]))
    have hy := Assoc.get?_of_mem_entries hnodup (hpair.subset (by simp : y ∈ [x, y]))
    rw [ha] at hx
    rw [hb] at hy
    cases hx
    cases hy
    exact List.pairwise_iff_forall_sublist.mp hpairs hpair
  · intro hlt
    refine ⟨[(a, fa), (b, fb)], ?_, rfl⟩
    obtain ⟨i, hi, hia⟩ := List.getElem_of_mem (Assoc.mem_entries_of_get? ha)
    obtain ⟨j, hj, hjb⟩ := List.getElem_of_mem (Assoc.mem_entries_of_get? hb)
    -- The bindings stand in the list at different places, and only one order fits the serials.
    rcases Nat.lt_trichotomy i j with hij | hij | hij
    · have hsub := @List.map_getElem_sublist _ pool.frames.entries [⟨i, hi⟩, ⟨j, hj⟩]
        (by simpa using hij)
      simpa only [List.map_cons, List.map_nil, Fin.getElem_fin, hia, hjb] using hsub
    · subst hij
      rw [hia] at hjb
      cases hjb
      exact absurd hlt (Nat.lt_irrefl _)
    · have hserials := List.pairwise_iff_getElem.mp hpairs j i hj hi hij
      rw [hia, hjb] at hserials
      exact absurd hlt (Nat.lt_asymm hserials)

end Pool

namespace Database

theorem Fresh.inOrder {db : Database} (h : db.Fresh) : db.pool.InOrder := by
  rw [h.pool]
  exact Pool.inOrder_empty _

/-- The tables and the capacity are as they were. -/
structure SameTables (db db' : Database) : Prop where
  catalog : db'.catalog = db.catalog
  capacity : db'.pool.capacity = db.pool.capacity
  files : db'.traffic.length = db.traffic.length

theorem SameTables.refl (db : Database) : SameTables db db := ⟨rfl, rfl, rfl⟩

theorem SameTables.trans {a b c : Database} (hab : SameTables a b) (hbc : SameTables b c) :
    SameTables a c :=
  ⟨hbc.catalog.trans hab.catalog, hbc.capacity.trans hab.capacity, hbc.files.trans hab.files⟩

/-- How a page that is not cached comes into the pool. -/
inductive Admission (id : PageId) (db db' : Database) : Prop where
  /-- Into a pool that is not full it comes with one read. -/
  | room (file : TableFile)
      (registered : db.catalog.file id.table = .ok file)
      (notFull : db.pool.queue.order.length < db.pool.capacity)
      (order : db'.pool.queue.order = db.pool.queue.order ++ [id])
      (traffic : db'.traffic = db.traffic.modify file.serial Traffic.countRead)
      (volume : db'.volume = db.volume)
  /-- A clean front page only goes. -/
  | clean (file : TableFile) (victim : PageId) (rest : List PageId) (page : Page)
      (registered : db.catalog.file id.table = .ok file)
      (full : db.pool.queue.order.length = db.pool.capacity)
      (front : db.pool.queue.order = victim :: rest)
      (cached : db.pool.page? victim = some page)
      (clean : page.isDirty = false)
      (order : db'.pool.queue.order = rest ++ [id])
      (traffic : db'.traffic = db.traffic.modify file.serial Traffic.countRead)
      (volume : db'.volume = db.volume)
  /-- A dirty front page is written once to the file of its table. -/
  | dirty (file home : TableFile) (victim : PageId) (rest : List PageId) (page : Page) (image : Bytes)
      (registered : db.catalog.file id.table = .ok file)
      (full : db.pool.queue.order.length = db.pool.capacity)
      (front : db.pool.queue.order = victim :: rest)
      (cached : db.pool.page? victim = some page)
      (dirty : page.isDirty = true)
      (order : db'.pool.queue.order = rest ++ [id])
      (registeredHome : db.catalog.file page.id.table = .ok home)
      (encoded : page.toImage = .ok image)
      (traffic : db'.traffic =
        (db.traffic.modify file.serial Traffic.countRead).modify home.serial Traffic.countWrite)
      (volume : db'.volume = home.pages.replace db.volume page.id.number image)

theorem makeRoom_cases {db : Database} (h : db.pool.InOrder) :
    (db.pool.queue.order.length < db.pool.capacity ∧ makeRoom db = .ok () db) ∨
      (db.pool.queue.order.length = db.pool.capacity ∧ ∃ victim rest page,
        db.pool.queue.order = victim :: rest ∧ db.pool.page? victim = some page ∧
          ((page.isDirty = false ∧ makeRoom db = .ok () (db.without victim)) ∨
            ∃ w : WriteBack db victim, w.page = page ∧
              makeRoom db = .ok () (w.result.without victim))) ∨
      ∃ e, makeRoom db = .error e db := by
  by_cases hroom : db.pool.size < db.pool.capacity
  · refine Or.inl ⟨?_, makeRoom_of_room hroom⟩
    rwa [h.size_eq] at hroom
  · right
    have hfull := Nat.le_of_not_lt hroom
    have hlength : db.pool.queue.order.length = db.pool.capacity := by
      rw [h.size_eq] at hfull
      exact Nat.le_antisymm h.size_le hfull
    rw [makeRoom_of_full hfull]
    rcases evict_cases db with ⟨victim, rest, hfront, hevict⟩ | herror
    · left
      refine ⟨hlength, victim, rest, ?_⟩
      have hmem : victim ∈ db.pool.frames.keys := by
        rw [h.keys, hfront]
        exact List.mem_cons_self
      cases hpage : db.pool.page? victim with
      | none =>
        rw [Pool.page?, Option.map_eq_none_iff, Assoc.get?_eq_none_iff] at hpage
        exact absurd hmem hpage
      | some page =>
        refine ⟨page, hfront, rfl, ?_⟩
        rcases hevict with ⟨hclean, hevict⟩ | ⟨w, hevict⟩
        · exact Or.inl ⟨hclean page hpage, hevict⟩
        · refine Or.inr ⟨w, ?_, hevict⟩
          have hcached := w.cached
          rw [hpage, Option.some.injEq] at hcached
          exact hcached.symm
    · exact Or.inr herror

theorem sameTables_countTransfer (db : Database) (file : TableFile) (change : Traffic → Traffic) :
    SameTables db (db.countTransfer file change) :=
  ⟨rfl, rfl, List.length_modify _ _ _⟩

theorem sameTables_storing (db : Database) (file : TableFile) (page : PageNo) (image : Bytes) :
    SameTables db (db.storing file page image) :=
  ⟨rfl, rfl, List.length_modify _ _ _⟩

theorem WriteBack.sameTables {db : Database} {id : PageId} (w : WriteBack db id) :
    SameTables db w.result :=
  ⟨rfl, rfl, List.length_modify _ _ _⟩

theorem WriteBack.outline {db : Database} {id : PageId} (w : WriteBack db id) :
    w.result.pool.outline = db.pool.outline :=
  Pool.outline_modify _ _ _

theorem fetch_admission {db db' : Database} {id : PageId} {frame : Frame} (h : db.pool.InOrder)
    (hmiss : db.pool.frames.get? id = none) (hfetch : fetch id db = .ok frame db') :
    Admission id db db' ∧ db'.pool.InOrder ∧ SameTables db db' := by
  rcases fetch_cases id db with ⟨frame, hcached, _⟩ | ⟨_, load, middle, hroom, hload⟩ | ⟨e, herror⟩ |
    ⟨file, e, herror⟩
  · rw [hmiss] at hcached
    cases hcached
  · rw [hload] at hfetch
    cases hfetch
    have hpage : db.pool.frames.get? load.page.id = none := by rwa [load.page_id]
    have hread := sameTables_countTransfer db load.file Traffic.countRead
    have hin : load.read.pool.InOrder := h
    rcases makeRoom_cases hin with ⟨hnotFull, hmake⟩ |
      ⟨hfull, victim, rest, page, hfront, hcached, ⟨hclean, hmake⟩ | ⟨w, hw, hmake⟩⟩ | ⟨e, hmake⟩
    · rw [hmake] at hroom
      cases hroom
      have hsize : load.read.pool.size < load.read.pool.capacity := by rwa [hin.size_eq]
      refine ⟨?_, hin.install hpage hsize, ⟨rfl, rfl, hread.files⟩⟩
      apply Admission.room load.file load.registered hnotFull
      · exact (Pool.order_install hin hpage).trans (by rw [load.page_id]; rfl)
      · rfl
      · rfl
    · rw [hmake] at hroom
      cases hroom
      obtain ⟨hrest, hsize, hout⟩ := hin.ready_of_drop hfront hfull hpage
      refine ⟨?_, (hin.drop victim).install hout hsize, ⟨rfl, rfl, hread.files⟩⟩
      apply Admission.clean load.file victim rest page load.registered hfull hfront hcached hclean
      · exact (Pool.order_install (hin.drop victim) hout).trans (by rw [hrest, load.page_id])
      · rfl
      · rfl
    · rw [hmake] at hroom
      cases hroom
      have hmarked : w.result.pool.InOrder := hin.of_outline w.outline
      have hstill : w.result.pool.frames.get? load.page.id = none := by
        change (db.pool.frames.modify victim _).get? load.page.id = none
        rw [Assoc.get?_modify, hpage, Option.map_none, ite_self]
      obtain ⟨hrest, hsize, hout⟩ := hmarked.ready_of_drop hfront hfull hstill
      refine ⟨?_, (hmarked.drop victim).install hout hsize, ⟨rfl, rfl, ?_⟩⟩
      · apply Admission.dirty load.file w.file victim rest page w.image load.registered hfull hfront
          hcached (hw ▸ w.dirty)
        · exact (Pool.order_install (hmarked.drop victim) hout).trans (by rw [hrest, load.page_id])
        · exact hw ▸ w.registered
        · exact hw ▸ w.encoded
        · rfl
        · rw [← hw]
          rfl
      · exact w.sameTables.files.trans hread.files
    · rw [hmake] at hroom
      cases hroom
  · rw [herror] at hfetch
    cases hfetch
  · rw [herror] at hfetch
    cases hfetch

end Database
end RowStore

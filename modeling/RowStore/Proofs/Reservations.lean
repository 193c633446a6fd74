import Mathlib.Control.Monad.Basic
import RowStore.Proofs.Requests

/-!
# Pages that failed inserts reserve

An insert fetches the pages of its file from the front and takes the first with a free slot. Behind the
last it writes an empty page to disk, and only then fetches it. So an insert that fails has done some
paging, which makes no file longer, and has reserved a page exactly if it found all pages full. Were two
files to share the number that their paths are hashed to, paging could write the pages of one of them to
the other; `TableFile.id` excludes that.
-/
namespace RowStore
open Relation

namespace Database
variable {db db' : Database}

/-- The `left` pages from number `page` on are fetched one after the other, and each of them is full. -/
inductive FindsFull (file : TableFile) : (page left : Nat) → Database → Database → Prop
  | behind (page : Nat) (db : Database) : FindsFull file page 0 db db
  | passed {page left : Nat} {frame : Frame} {db middle db' : Database}
      (fetched : fetch ⟨file.id, UInt32.ofNat page⟩ db = .ok frame middle)
      (full : frame.page.numEmptySlots = 0) (rest : FindsFull file (page + 1) left middle db') :
      FindsFull file page (left + 1) db db'

theorem FindsFull.turnovers {file : TableFile} {page left : Nat} (h : FindsFull file page left db db')
    (horderly : db.Orderly) : ReflTransGen Turnover db db' := by
  induction h with
  | behind page db => exact .refl
  | passed hfetch _ _ ih =>
    obtain ⟨hpages, hmiddle, _⟩ := horderly.fetched hfetch
    exact hpages.trans (ih hmiddle)

/-- The page behind the last is reserved on disk. -/
def reserving (db : Database) (file : TableFile) (page : Nat) : Database :=
  db.storing file (UInt32.ofNat page) (List.replicate file.pageSize 0)

theorem Orderly.turnovers_of_insert_error (h : db.Orderly) {txn : TransactionId} {id : PageId} {t : Tuple}
    {e : Fault} (hinsert : updateList txn id (insertEdit t) db = .error e db') :
    ReflTransGen Turnover db db' :=
  h.turnovers_of_update_error (fun _ _ _ => Page.insertEdit_eq_error) (updateList_eq_error hinsert)

/-- An insert that fails has found a page that it could not fetch or that did not take the tuple, or it
has found all pages full and reserved one more. Apart from that it is paging. -/
theorem insertAmong_error_cases {file : TableFile} {txn : TransactionId} {t : Tuple} (left page : Nat)
    {db : Database} (h : db.Orderly) {e : Fault}
    (hinsert : insertAmong file txn t page left db = .error e db') :
    ((¬ ∃ full, FindsFull file page left db full) ∧ ReflTransGen Turnover db db') ∨
      ∃ full, FindsFull file page left db full ∧
        ReflTransGen Turnover (full.reserving file (page + left)) db' := by
  induction left generalizing page db with
  | zero =>
    rw [insertAmong_zero] at hinsert
    have hreserved : (db.reserving file page).Orderly := h.storing _ List.length_replicate
    exact Or.inr ⟨db, .behind page db, hreserved.turnovers_of_insert_error hinsert⟩
  | succ left ih =>
    rw [insertAmong_succ] at hinsert
    obtain ⟨hpages, _⟩ := h.fetch_turnovers ⟨file.id, UInt32.ofNat page⟩
    cases hfetch : fetch ⟨file.id, UInt32.ofNat page⟩ db with
    | error fault middle =>
      rw [hfetch] at hinsert
      cases hinsert
      rw [after_of_error hfetch] at hpages
      refine Or.inl ⟨?_, hpages⟩
      rintro ⟨full, _ | ⟨hfetched, _, _⟩⟩
      rw [hfetch] at hfetched
      cases hfetched
    | ok frame middle =>
      rw [hfetch] at hinsert
      obtain ⟨hpages, hmiddle, _⟩ := h.fetched hfetch
      have hpassed {full : Database} (hfull : FindsFull file page (left + 1) db full) :
          frame.page.numEmptySlots = 0 ∧ FindsFull file (page + 1) left middle full := by
        cases hfull with
        | passed hfetched hnone hrest =>
          rw [hfetch] at hfetched
          cases hfetched
          exact ⟨hnone, hrest⟩
      by_cases hfree : 0 < frame.page.numEmptySlots
      · simp only [hfree, if_true] at hinsert
        refine Or.inl ⟨?_, hpages.trans (hmiddle.turnovers_of_insert_error hinsert)⟩
        rintro ⟨full, hfull⟩
        exact Nat.ne_of_gt hfree (hpassed hfull).1
      · simp only [hfree, if_false] at hinsert
        rcases ih (page + 1) hmiddle hinsert with ⟨hnot, hrest⟩ | ⟨full, hfull, hrest⟩
        · exact Or.inl ⟨fun ⟨full, hfull⟩ => hnot ⟨full, (hpassed hfull).2⟩, hpages.trans hrest⟩
        · rw [Nat.succ_add_eq_add_succ] at hrest
          exact Or.inr ⟨full, .passed hfetch (Nat.eq_zero_of_not_pos hfree) hfull, hrest⟩

/-- The file has pages of the size that its table is registered with, if it is registered. -/
def SizedAs (db : Database) (file : TableFile) : Prop :=
  ∀ found, db.catalog.file file.id = .ok found → found.pageSize = file.pageSize

theorem Orderly.sizedAs (h : db.Orderly) {table : TableId} {file : TableFile}
    (hfile : db.catalog.file table = .ok file) : db.SizedAs file := by
  intro found hfound
  rw [h.registered hfile] at hfound
  cases hfound
  rfl

theorem pageTotal_of_turnovers (h : db.Orderly) (hsteps : ReflTransGen Turnover db db') {file : TableFile}
    (hsize : db.SizedAs file) : file.pageTotal db'.volume = file.pageTotal db.volume := by
  induction hsteps with
  | refl => rfl
  | @tail middle last hfirst hstep ih =>
    rw [← ih]
    cases hstep with
    | @writeBack id w =>
      have hmiddle := h.turnovers hfirst
      refine w.pageTotal_eq hmiddle fun hid => (hsize w.file ?_).symm
      rw [hid, ← (sameSetup_of_turnovers hfirst).catalog]
      exact hmiddle.registered w.registered
    | read | evict | load => rfl

end Database
end RowStore

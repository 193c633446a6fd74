import Mathlib.Algebra.Order.Floor.Div
import RowStore.Proofs.PageArray

/-!
# Transfers of pages

Whatever pages of a file are read and written, in any order, the file shows one array of pages: a page
has the data that were written to it last, or else the bytes that the file had there at first, with zeros
past its end. The file grows up to the highest page that was written. The main statement says so, and that
the pages are counted exactly unless the page with the last number was written; then the count is zero.
-/
namespace RowStore.PageFile

/-- One transfer: a page is read into a buffer of some length, or data are written in its place. -/
inductive Transfer where
  | read (page : PageNo) (length : Nat)
  | write (page : PageNo) (data : Bytes)
  deriving DecidableEq

namespace Transfer

/-- The bytes of the buffer. -/
def length : Transfer → Nat
  | .read _ length => length
  | .write _ data => data.length

def isWrite : Transfer → Bool
  | .read _ _ => false
  | .write _ _ => true

def perform (file : PageFile) (volume : Volume) : Transfer → Except Violation Volume
  | .read page length => (file.read volume page length).map fun _ => volume
  | .write page data => file.write volume page data

/-- The volume after a transfer of one page. -/
def applied (file : PageFile) (volume : Volume) : Transfer → Volume
  | .read _ _ => volume
  | .write page data => file.replace volume page data

/-- The data that were written to the page last. -/
def lastWritten (n : PageNo) : List Transfer → Option Bytes
  | [] => none
  | .read _ _ :: calls => lastWritten n calls
  | .write page data :: calls => (lastWritten n calls).or (if n = page then some data else none)

/-- One more than the highest number of a page that was written. -/
def reach : List Transfer → Nat
  | [] => 0
  | .read _ _ :: calls => reach calls
  | .write page _ :: calls => max (page.toNat + 1) (reach calls)

theorem lt_reach_iff {calls : List Transfer} {n : Nat} :
    n < reach calls ↔ ∃ page data, .write page data ∈ calls ∧ n ≤ page.toNat := by
  induction calls with
  | nil => simp [reach]
  | cons call calls ih =>
    cases call with
    | read page length => simp [reach, ih]
    | write page data =>
      rw [reach, lt_max_iff, ih, Nat.lt_succ_iff]
      constructor
      · rintro (hle | ⟨other, written, hmem, hle⟩)
        · exact ⟨page, data, List.mem_cons_self, hle⟩
        · exact ⟨other, written, List.mem_cons_of_mem _ hmem, hle⟩
      · rintro ⟨other, written, hmem, hle⟩
        rcases List.mem_cons.mp hmem with heq | hmem
        · cases heq
          exact Or.inl hle
        · exact Or.inr ⟨other, written, hmem, hle⟩

theorem reach_le (calls : List Transfer) : reach calls ≤ UInt32.size := by
  refine Nat.le_of_not_lt fun hlt => ?_
  obtain ⟨page, _, _, hle⟩ := lt_reach_iff.mp hlt
  exact absurd page.toNat_lt (Nat.not_lt_of_le hle)

theorem reach_eq_size_iff {calls : List Transfer} :
    reach calls = UInt32.size ↔ ∃ data, .write 4294967295 data ∈ calls := by
  have hfull : reach calls = UInt32.size ↔ 4294967295 < reach calls :=
    ⟨fun h => h ▸ by decide, fun h => Nat.le_antisymm (reach_le calls) h⟩
  rw [hfull, lt_reach_iff]
  constructor
  · rintro ⟨page, data, hmem, hle⟩
    have hlast : page = 4294967295 :=
      UInt32.toNat_inj.mp (Nat.le_antisymm (Nat.le_of_lt_succ page.toNat_lt) hle)
    exact ⟨data, hlast ▸ hmem⟩
  · rintro ⟨data, hmem⟩
    exact ⟨4294967295, data, hmem, Nat.le_refl _⟩

variable {file : PageFile} {call : Transfer} {calls : List Transfer}

theorem perform_eq (h : call.length = file.pageSize) (volume : Volume) :
    call.perform file volume = .ok (call.applied file volume) := by
  cases call with
  | read page length =>
    have h : length = file.pageSize := h
    rw [perform, PageFile.read, if_pos h]
    rfl
  | write page data =>
    have h : data.length = file.pageSize := h
    rw [perform, PageFile.write, if_pos h]
    rfl

theorem image_applied (h : call.length = file.pageSize) (volume : Volume) (n : PageNo) :
    file.image (call.applied file volume) n = (lastWritten n [call]).getD (file.image volume n) := by
  cases call with
  | read page length => rfl
  | write page data =>
    rw [applied, image_replace _ _ _ _ h]
    simp only [lastWritten, Option.none_or]
    split <;> rfl

theorem pageTotal_applied (hpos : 0 < file.pageSize) (h : call.length = file.pageSize) (volume : Volume) :
    file.pageTotal (call.applied file volume) = max (file.pageTotal volume) (reach [call]) := by
  cases call with
  | read page length => exact (Nat.max_zero _).symm
  | write page data => exact pageTotal_replace hpos volume page h

theorem lastWritten_cons (n : PageNo) (call : Transfer) (calls : List Transfer) :
    lastWritten n (call :: calls) = (lastWritten n calls).or (lastWritten n [call]) := by
  cases call with
  | read page length => rw [lastWritten, lastWritten, lastWritten, Option.or_none]
  | write page data => rw [lastWritten, lastWritten, lastWritten, Option.none_or]

theorem reach_cons (call : Transfer) (calls : List Transfer) :
    reach (call :: calls) = max (reach [call]) (reach calls) := by
  cases call with
  | read page length => exact (Nat.zero_max _).symm
  | write page data => rw [reach, reach, reach, Nat.max_zero]

theorem image_foldl (hcalls : ∀ call ∈ calls, call.length = file.pageSize) (volume : Volume) (n : PageNo) :
    file.image (calls.foldl (applied file) volume) n =
      (lastWritten n calls).getD (file.image volume n) := by
  induction calls generalizing volume with
  | nil => rfl
  | cons call calls ih =>
    rw [List.foldl_cons, ih fun other hmem => hcalls other (List.mem_cons_of_mem _ hmem),
      image_applied (hcalls call List.mem_cons_self), lastWritten_cons n call calls]
    cases lastWritten n calls <;> rfl

theorem pageTotal_foldl (hpos : 0 < file.pageSize) (hcalls : ∀ call ∈ calls, call.length = file.pageSize)
    (volume : Volume) :
    file.pageTotal (calls.foldl (applied file) volume) = max (file.pageTotal volume) (reach calls) := by
  induction calls generalizing volume with
  | nil => exact (Nat.max_zero _).symm
  | cons call calls ih =>
    rw [List.foldl_cons, ih fun other hmem => hcalls other (List.mem_cons_of_mem _ hmem),
      pageTotal_applied hpos (hcalls call List.mem_cons_self), reach_cons call calls, Nat.max_assoc]

theorem foldl_writes (file : PageFile) (calls : List Transfer) (volume : Volume) :
    (calls.filter isWrite).foldl (applied file) volume = calls.foldl (applied file) volume := by
  induction calls generalizing volume with
  | nil => rfl
  | cons call calls ih =>
    cases call with
    | read page length => exact ih volume
    | write page data => exact ih (file.replace volume page data)

end Transfer

open Transfer

/-- The volume after the transfers, one after the other. -/
def transfer (file : PageFile) (calls : List Transfer) (volume : Volume) : Except Violation Volume :=
  calls.foldlM (fun volume call => call.perform file volume) volume

theorem transfer_eq {file : PageFile} {calls : List Transfer}
    (hcalls : ∀ call ∈ calls, call.length = file.pageSize) (volume : Volume) :
    file.transfer calls volume = .ok (calls.foldl (applied file) volume) := by
  induction calls generalizing volume with
  | nil => rfl
  | cons call calls ih =>
    have hrest := ih (fun other hmem => hcalls other (List.mem_cons_of_mem _ hmem)) (call.applied file volume)
    rw [transfer, List.foldlM_cons, perform_eq (hcalls call List.mem_cons_self)]
    exact hrest

theorem pageTotal_eq_ceilDiv {file : PageFile} (hpos : 0 < file.pageSize) (volume : Volume) :
    file.pageTotal volume = (volume.bytes file.name).length ⌈/⌉ file.pageSize := by
  rw [pageTotal, Nat.ceilDiv_eq_add_pred_div, Volume.bytes, Contents.length_toBytes,
    Nat.add_sub_assoc (Nat.one_le_iff_ne_zero.mpr (Nat.ne_of_gt hpos))]

/-- Transfers of one page each succeed, in any order and over any bytes. Afterwards each page is read as
the data that were written to it last, or else as the bytes that the file had in its place at first, with
zeros past their end; what was read has changed no byte. The pages are those that the bytes took at first
and those up to the highest one that was written. They are counted exactly, unless the page with the last
number was written: then the count is zero. Positions in the file have 64 bits as long as no page has more
than 2^32 bytes. -/
theorem transfer_shows_array {file : PageFile} (hpos : 0 < file.pageSize) {volume : Volume}
    (hfew : (volume.bytes file.name).length ⌈/⌉ file.pageSize < UInt32.size) {calls : List Transfer}
    (hcalls : ∀ call ∈ calls, call.length = file.pageSize) :
    ∃ volume', file.transfer calls volume = .ok volume' ∧
      (∀ n, file.read volume' n file.pageSize = .ok ((lastWritten n calls).getD
        (Bytes.readAt (volume.bytes file.name) (n.toNat * file.pageSize) file.pageSize))) ∧
      file.transfer (calls.filter isWrite) volume = .ok volume' ∧
      ∃ count, file.numPages volume' = .ok count ∧
        (count.toNat = max ((volume.bytes file.name).length ⌈/⌉ file.pageSize) (reach calls) ↔
          ∀ data, .write 4294967295 data ∉ calls) ∧
        ((∃ data, .write 4294967295 data ∈ calls) → count = 0) := by
  refine ⟨calls.foldl (applied file) volume, transfer_eq hcalls volume, fun n => ?_, ?_,
    file.pageCount (calls.foldl (applied file) volume), if_neg (Nat.ne_of_gt hpos), ?_⟩
  · rw [read, if_pos rfl, image_foldl hcalls, image_eq, offset]
  · rw [transfer_eq fun call hmem => hcalls call (List.mem_of_mem_filter hmem), foldl_writes]
  · have htotal := pageTotal_foldl hpos hcalls volume
    rw [pageTotal_eq_ceilDiv hpos volume] at htotal
    have hle := reach_le calls
    rw [pageCount_eq_ofNat, htotal, ← not_exists, ← reach_eq_size_iff, ← UInt32.toNat_inj,
      UInt32.toNat_ofNat']
    generalize (volume.bytes file.name).length ⌈/⌉ file.pageSize = first at hfew
    change first < 4294967296 at hfew
    change reach calls ≤ 4294967296 at hle
    change (_ ↔ ¬ reach calls = 4294967296) ∧ (reach calls = 4294967296 → _ = 0)
    omega

/-- Over six bytes in pages of four, page three is written twice and page two in between; the partial page
is read and never written. -/
theorem transfer_shows_array_gap :
    let file : PageFile := ⟨"d.dat", 4⟩
    let volume : Volume := ({} : Volume).store "d.dat" (Contents.ofBytes [1, 2, 3, 4, 5, 6])
    let calls : List Transfer :=
      [.write 3 [7, 7, 7, 7], .read 1 4, .write 2 [9, 9, 9, 9], .write 3 [8, 8, 8, 8]]
    0 < file.pageSize ∧ (volume.bytes file.name).length ⌈/⌉ file.pageSize < UInt32.size ∧
      (∀ call ∈ calls, call.length = file.pageSize) ∧
      ∃ volume', file.transfer calls volume = .ok volume' ∧
        file.read volume' 0 4 = .ok [1, 2, 3, 4] ∧ file.read volume' 1 4 = .ok [5, 6, 0, 0] ∧
        file.read volume' 3 4 = .ok [8, 8, 8, 8] ∧ file.read volume' 9 4 = .ok [0, 0, 0, 0] ∧
        ∃ count, file.numPages volume' = .ok count ∧ count.toNat = 4 := by
  intro file volume calls
  have hpos : 0 < file.pageSize := by decide
  have hbytes : volume.bytes file.name = [1, 2, 3, 4, 5, 6] := by decide
  have hpages : (volume.bytes file.name).length ⌈/⌉ file.pageSize = 2 := by
    rw [hbytes, Nat.ceilDiv_eq_add_pred_div]
    decide
  have hfew : (volume.bytes file.name).length ⌈/⌉ file.pageSize < UInt32.size := by
    rw [hpages]
    decide
  have hcalls : ∀ call ∈ calls, call.length = file.pageSize := by decide
  obtain ⟨volume', hrun, hreads, -, count, hcount, hexact, -⟩ := transfer_shows_array hpos hfew hcalls
  rw [hbytes] at hreads
  rw [hpages] at hexact
  have hnone : ∀ data, .write 4294967295 data ∉ calls := by simp [calls]
  exact ⟨hpos, hfew, hcalls, volume', hrun, hreads 0, hreads 1, hreads 3, hreads 9, count, hcount,
    hexact.mpr hnone⟩

/-- Once the page with the last number was written, the file counts no pages, though that page is read. -/
theorem last_page_uncounted :
    let file : PageFile := ⟨"d.dat", 1⟩
    let calls : List Transfer := [.write 4294967295 [0x7F]]
    (({} : Volume).bytes file.name).length ⌈/⌉ file.pageSize = 0 ∧ reach calls = 4294967296 ∧
      ∃ volume', file.transfer calls {} = .ok volume' ∧ file.read volume' 4294967295 1 = .ok [0x7F] ∧
        file.numPages volume' = .ok 0 := by
  intro file calls
  have hcalls : ∀ call ∈ calls, call.length = file.pageSize := by decide
  refine ⟨?_, by decide, calls.foldl (applied file) {}, transfer_eq hcalls {}, by decide +kernel,
    by decide +kernel⟩
  rw [Nat.ceilDiv_eq_add_pred_div]
  decide

end RowStore.PageFile

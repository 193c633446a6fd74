import RowStore.Proofs.Operations
import RowStore.Proofs.PageArray
import RowStore.Query.Plan

/-!
# Where faults come from

The faults of an operation are those of its parts. Reading, writing and evicting pages neither compare
schemas nor ask operators; changing a table compares schemas and asks no operator. So schemas that
disagree are a fault of tables and plans, and an operator that is not open is a fault of operators only.
-/
namespace RowStore

/-- The fault is one that moving pages can have. -/
def Fault.OfPages : Fault → Prop
  | .error (.schemaMismatch _ _) | .error .operatorNotOpen => False
  | _ => True

/-- The fault is one that changing tables can have. -/
def Fault.OfTables (e : Fault) : Prop := e ≠ .error .operatorNotOpen

theorem Fault.OfPages.ofTables {e : Fault} (h : e.OfPages) : e.OfTables := by
  rintro rfl
  exact h

theorem Tuple.ofPages_of_encodeFields {index : Nat} {fields : List Field} {types : List ColumnType}
    {e : StoreError} (h : encodeFields index fields types = .error e) : (Fault.error e).OfPages := by
  induction fields generalizing index types with
  | nil => cases h
  | cons field fields ih =>
    cases types with
    | nil => cases h
    | cons type types =>
      rw [encodeFields] at h
      split at h
      · cases h
        trivial
      · cases hrest : encodeFields (index + 1) fields types with
        | ok data =>
          rw [hrest] at h
          cases h
        | error e' =>
          rw [hrest] at h
          cases h
          exact ih hrest

theorem Page.ofPages_of_encodeSlots {width : Nat} {slots : List (Option Tuple)} {e : StoreError}
    (h : encodeSlots width slots = .error e) : (Fault.error e).OfPages := by
  induction slots with
  | nil => cases h
  | cons slot slots ih =>
    rw [encodeSlots] at h
    split at h
    · next hslot =>
      cases h
      cases slot with
      | none => cases hslot
      | some t => exact Tuple.ofPages_of_encodeFields hslot
    · cases hrest : encodeSlots width slots with
      | ok data =>
        rw [hrest] at h
        cases h
      | error e' =>
        rw [hrest] at h
        cases h
        exact ih hrest

namespace Database
variable {α β : Type} {P Q : Fault → Prop}

/-- All faults of the operation are such. -/
def Raises (P : Fault → Prop) (operation : Db α) : Prop :=
  ∀ db e db', operation db = .error e db' → P e

theorem Raises.mono {operation : Db α} (h : Raises P operation) (hle : ∀ e, P e → Q e) :
    Raises Q operation :=
  fun db e db' hrun => hle e (h db e db' hrun)

theorem raises_pure (a : α) : Raises P (pure a : Db α) := by
  intro db e db' h
  cases h

theorem raises_throw {e : Fault} (h : P e) : Raises P (throw e : Db α) := by
  intro db e' db' hthrow
  cases hthrow
  exact h

theorem raises_get : Raises P (get : Db Database) := by
  intro db e db' h
  cases h

theorem raises_modify (change : Database → Database) : Raises P (modify change : Db PUnit) := by
  intro db e db' h
  cases h

theorem raises_bind {operation : Db α} {next : α → Db β} (h : Raises P operation)
    (hnext : ∀ a, Raises P (next a)) : Raises P (operation >>= next) := by
  intro db e db' hbind
  rw [Db.bind_run] at hbind
  cases hrun : operation db with
  | ok a middle =>
    rw [hrun] at hbind
    exact hnext a _ _ _ hbind
  | error e' middle =>
    rw [hrun] at hbind
    cases hbind
    exact h _ _ _ hrun

theorem raises_lift {answer : Except StoreError α} (h : ∀ e, answer = .error e → P (.error e)) :
    Raises P (lift answer) := by
  intro db e db' hlift
  cases hanswer : answer with
  | ok a =>
    rw [hanswer] at hlift
    cases hlift
  | error cause =>
    rw [hanswer] at hlift
    cases hlift
    exact h cause hanswer

theorem ofPages_of_checkPage {file : TableFile} {volume : Volume} {page : PageId} {e : StoreError}
    (h : file.checkPage volume page = .error e) : (Fault.error e).OfPages := by
  rw [TableFile.checkPage] at h
  split at h
  · cases h
  · cases h
    trivial

theorem raises_fileOf (table : TableId) : Raises Fault.OfPages (fileOf table) := by
  intro db
  refine raises_lift (fun e he => ?_) db
  rw [Catalog.file, Catalog.entry] at he
  cases hentry : db.catalog.tables.get? table with
  | none =>
    rw [hentry] at he
    cases he
    trivial
  | some entry =>
    rw [hentry] at he
    cases he

theorem raises_readPage (file : TableFile) (id : PageId) : Raises Fault.OfPages (readPage file id) := by
  intro db e db' h
  unfold readPage at h
  cases hcheck : file.checkPage db.volume id with
  | error cause =>
    rw [hcheck] at h
    cases h
    exact ofPages_of_checkPage hcheck
  | ok _ =>
    obtain ⟨page, hpage, _⟩ := file.pageOnDisk_eq_ok db.volume id.number
    simp only [hcheck, hpage, lift] at h
    cases h

theorem raises_writeImage (file : TableFile) (n : PageNo) (image : Bytes) :
    Raises Fault.OfPages (writeImage file n image) := by
  intro db e db' h
  by_cases hlength : image.length = file.pageSize
  · rw [writeImage_of_length hlength] at h
    cases h
  · rw [writeImage_of_wrongLength hlength] at h
    cases h
    trivial

theorem raises_writePage (file : TableFile) (page : Page) :
    Raises Fault.OfPages (writePage file page) := by
  have hwrite : Raises Fault.OfPages (lift page.toImage >>= writeImage file page.id.number) := by
    refine raises_bind (raises_lift fun e he => ?_) fun image => raises_writeImage _ _ image
    rw [Page.toImage] at he
    cases hslots : Page.encodeSlots page.schema.size page.slots with
    | ok body =>
      rw [hslots] at he
      cases he
    | error cause =>
      rw [hslots] at he
      cases he
      exact Page.ofPages_of_encodeSlots hslots
  unfold writePage
  split
  · exact hwrite
  · exact raises_bind (raises_throw trivial) fun _ => hwrite

theorem raises_writeBack (id : PageId) : Raises Fault.OfPages (writeBack id) := by
  refine raises_bind raises_get fun db => ?_
  split
  · exact raises_pure _
  · next page _ =>
    split
    · refine raises_bind (raises_fileOf _) fun file => raises_bind (raises_writePage file page) ?_
      exact fun _ => raises_bind (raises_modify _) fun _ => raises_pure _
    · exact raises_pure _

theorem raises_evict : Raises Fault.OfPages evict := by
  refine raises_bind raises_get fun db => ?_
  split
  · exact raises_bind raises_get fun _ => raises_throw trivial
  · exact raises_bind (raises_writeBack _) fun _ => raises_modify _

theorem raises_install (page : Page) : Raises Fault.OfPages (install page) := by
  have hroom : Raises Fault.OfPages makeRoom := by
    intro db e db' h
    rw [makeRoom] at h
    split at h
    · exact raises_evict _ _ _ h
    · cases h
  have hplace : Raises Fault.OfPages (place page) := by
    intro db e db' h
    cases h
  exact raises_bind hroom fun _ => hplace

theorem raises_fetch (id : PageId) : Raises Fault.OfPages (fetch id) := by
  refine raises_bind raises_get fun db => ?_
  split
  · exact raises_pure _
  · refine raises_bind (raises_fileOf _) fun file => raises_bind (raises_readPage file id) ?_
    exact fun page => raises_install page

theorem raises_update (txn : TransactionId) (id : PageId) {edit : PageEdit Unit}
    (hedit : ∀ page e page', edit page = .error e page' → e ≠ .operatorNotOpen) :
    Raises Fault.OfTables (update txn id edit) := by
  refine raises_bind ((raises_fetch id).mono fun _ => Fault.OfPages.ofTables) fun frame => ?_
  intro db e db' h
  rw [editFrame] at h
  cases hrun : edit frame.page with
  | ok _ page =>
    rw [hrun] at h
    cases h
  | error cause page =>
    rw [hrun] at h
    cases h
    intro heq
    exact hedit _ _ _ hrun (Fault.error.inj heq)

theorem raises_insertAmong (file : TableFile) (txn : TransactionId) (t : Tuple) (left page : Nat) :
    Raises Fault.OfTables (insertAmong file txn t page left) := by
  have hupdate (id : PageId) : Raises Fault.OfTables (update txn id (insertEdit t)) := by
    refine raises_update txn id fun page e page' hrun => ?_
    change EStateM.bind (Page.insert t) (fun _ => pure ()) page = _ at hrun
    rw [EStateM.bind, Page.insert] at hrun
    split at hrun
    · next hinsert =>
      cases hrun
    · next hinsert =>
      cases hrun
      split at hinsert
      · split at hinsert
        · cases hinsert
        · cases hinsert
          exact nofun
      · cases hinsert
        exact nofun
  induction left generalizing page with
  | zero =>
    refine raises_bind ((raises_writeImage _ _ _).mono fun _ => Fault.OfPages.ofTables) fun _ => ?_
    exact raises_bind (hupdate _) fun _ => raises_pure _
  | succ left ih =>
    refine raises_bind ((raises_fetch _).mono fun _ => Fault.OfPages.ofTables) fun frame => ?_
    split
    · exact raises_bind (hupdate _) fun _ => raises_pure _
    · exact ih (page + 1)

theorem raises_insertTuple (txn : TransactionId) (table : TableId) (t : Tuple) :
    Raises Fault.OfTables (insertTuple txn table t) := by
  refine raises_bind ((raises_fileOf table).mono fun _ => Fault.OfPages.ofTables) fun file => ?_
  refine raises_bind ?_ fun _ => raises_pure _
  have hamong : Raises Fault.OfTables
      (get >>= fun db => insertAmong file txn t 0 (file.numPages db.volume).toNat) :=
    raises_bind raises_get fun _ => raises_insertAmong file txn t _ 0
  unfold insertInto
  split
  · exact hamong
  · exact raises_bind (raises_throw nofun) fun _ => hamong

theorem raises_deleteTuple (txn : TransactionId) (t : Tuple) :
    Raises Fault.OfTables (deleteTuple txn t) := by
  have hupdate (id : PageId) : Raises Fault.OfTables (update txn id (Page.delete t)) := by
    refine raises_update txn id fun page e page' hrun => ?_
    rw [Page.delete] at hrun
    split at hrun
    · cases hrun
      exact nofun
    · split at hrun
      · cases hrun
        exact nofun
      · split at hrun <;> cases hrun
        exact nofun
  rw [deleteTuple]
  split
  · exact raises_throw nofun
  · refine raises_bind ((raises_fileOf _).mono fun _ => Fault.OfPages.ofTables) fun file => ?_
    refine raises_bind ?_ fun _ => raises_pure _
    rw [deleteFrom]
    split
    · exact raises_throw nofun
    · refine raises_bind raises_get fun db => raises_bind (raises_lift fun e he => ?_) fun _ => ?_
      · exact (ofPages_of_checkPage he).ofTables
      · exact raises_bind (hupdate _) fun _ => raises_pure _

end Database

theorem Tuple.ofTables_of_resetSchema {t : Tuple} {schema : Schema} {e : StoreError}
    (h : t.resetSchema schema = .error e) : (Fault.error e).OfTables := by
  rw [resetSchema] at h
  split at h
  · cases h
  · cases h
    exact nofun

theorem Predicate.ofTables_of_holds {predicate : Predicate} {t : Tuple} {e : StoreError}
    (h : predicate.holds t = .error e) : (Fault.error e).OfTables := by
  rw [holds, Tuple.field] at h
  split at h
  · cases h
  · cases h
    exact nofun

namespace Cursor

theorem ofPages_of_advance {file : TableFile} {left page : Nat} {db : Database} {e : Fault}
    {last : Cursor × Database} (h : advance file page left db = .error e last) : e.OfPages := by
  induction left generalizing page db with
  | zero => cases h
  | succ left ih =>
    rw [advance] at h
    split at h
    · next hfetch =>
      cases h
      exact Database.raises_fetch _ _ _ _ hfetch
    · split at h
      · exact ih h
      · cases h

theorem ofPages_of_next {x last : Cursor × Database} {e : Fault} (h : next x = .error e last) :
    e.OfPages := by
  rw [next] at h
  split at h
  · cases h
  · exact ofPages_of_advance h

end Cursor
end RowStore

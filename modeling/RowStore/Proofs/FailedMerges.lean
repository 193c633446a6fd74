import RowStore.Proofs.Aggregates

/-!
# Failed merges

A merge fails on a tuple that is too short, and on an integer that takes the running value of its group
out of 64 bits. The first leaves the groups as they are. The second leaves the running values, which decide
what all later calls answer, but it counts the tuple. So a sum is none the worse for it, and an average is
divided by a greater number from then on.
-/
namespace RowStore

/-- The integer has the range of a running value. -/
def Bits64 (value : Int) : Prop := -9223372036854775808 ≤ value ∧ value ≤ 9223372036854775807

theorem tdiv_half {n : Nat} (h : 4 ≤ n) :
    (n : Int).tdiv (n / 2 : Nat) = 2 ∧ (n : Int).tdiv (n / 2 + 1 : Nat) = 1 := by
  have htwice : n / (n / 2) = 2 := Nat.div_eq_of_lt_le (by omega) (by omega)
  have honce : n / (n / 2 + 1) = 1 := Nat.div_eq_of_lt_le (by omega) (by omega)
  rw [← Int.ofNat_tdiv, ← Int.ofNat_tdiv, htwice, honce]
  exact ⟨rfl, rfl⟩

theorem map_mapM {α β γ ε : Type} {f : α → Except ε β} {key : α → γ} {check : γ → Except ε Unit} {as : List α}
    (h : ∀ a ∈ as, (f a).map (fun _ => ()) = check (key a)) :
    (as.mapM f).map (fun _ => ()) = forM (as.map key) check := by
  induction as with
  | nil => rfl
  | cons a as ih =>
    rw [List.map_cons, List.forM_cons, ← h a List.mem_cons_self,
      ← ih fun other hmem => h other (List.mem_cons_of_mem _ hmem), List.mapM_cons]
    cases f a with
    | error e => rfl
    | ok b => cases as.mapM f <;> rfl

namespace Tuple

theorem field_eq_error {t : Tuple} {index : Nat} {e : StoreError} (h : t.field index = .error e) :
    t.fields.length ≤ index ∧ e = .fieldIndexOutOfRange index t.fields.length := by
  unfold field at h
  split at h
  · cases h
  · next hnone =>
    cases h
    exact ⟨List.getElem?_eq_none_iff.mp hnone, rfl⟩

theorem checkFields_int (a b : Int32) (front : List Field) (index : Nat) (types : List ColumnType) :
    checkFields index (front ++ [.int a]) types = checkFields index (front ++ [.int b]) types := by
  induction front generalizing index types with
  | nil =>
    cases types with
    | nil => rfl
    | cons type types => cases type <;> rfl
  | cons field front ih =>
    cases types with
    | nil => rfl
    | cons type types => simp only [List.cons_append, checkFields, ih]

theorem ofFields_int {schema : Schema} {front : List Field} {a : Int32} {t : Tuple}
    (h : ofFields schema (front ++ [.int a]) = .ok t) (b : Int32) :
    ofFields schema (front ++ [.int b]) = .ok ⟨schema, front ++ [.int b], none⟩ := by
  rw [ofFields, List.length_append, checkFields_int a b] at h
  rw [ofFields, List.length_append]
  split at h
  · next hlength =>
    rw [List.length_singleton] at hlength
    rw [List.length_singleton, if_pos hlength]
    split at h
    · cases h
    · rfl
  · cases h

theorem map_ofFields_int (schema : Schema) (front : List Field) (a b : Int32) :
    (ofFields schema (front ++ [.int a])).map (fun _ => ()) =
      (ofFields schema (front ++ [.int b])).map fun _ => () := by
  simp only [ofFields, List.length_append, List.length_singleton, checkFields_int a b]
  split
  · cases checkFields 0 (front ++ [.int b]) schema.types <;> rfl
  · rfl

end Tuple

namespace Accumulator

theorem checkedAdd_eq_some {a b sum : Int} :
    checkedAdd a b = some sum ↔ Bits64 (a + b) ∧ a + b = sum := by
  rw [checkedAdd, Bits64]
  split <;> simp [*]

theorem checkedAdd_eq_none {a b : Int} : checkedAdd a b = none ↔ ¬Bits64 (a + b) := by
  rw [checkedAdd, Bits64]
  split <;> simp [*]

/-- The running value with one more tuple, unless it leaves the 64 bits. -/
def next? (function : AggregateFunction) (running : Int) : Option Int → Option Int
  | none => some running
  | some v =>
    match function with
    | .min => some (min running v)
    | .max => some (max running v)
    | .count => some running
    | .sum | .avg => checkedAdd running v

/-- The group with more tuples counted. -/
def recounted (acc : Accumulator) (more : Nat) : Accumulator := { acc with count := acc.count + more }

theorem recounted_recounted (acc : Accumulator) (more more' : Nat) :
    (acc.recounted more).recounted more' = acc.recounted (more + more') := by
  rw [recounted, recounted, recounted, Nat.add_assoc]

theorem add_eq (function : AggregateFunction) (value : Option Int) (acc : Accumulator) :
    add function value acc =
      match next? function acc.value value with
      | some running => .ok () ⟨running, acc.count + 1⟩
      | none => .error (.aggregateOverflow function.text acc.value) (acc.recounted 1) := by
  cases value with
  | none => rfl
  | some v =>
    cases function with
    | min | max | count => rfl
    | sum | avg => cases hadd : checkedAdd acc.value v <;> simp [add, next?, hadd, recounted]

theorem result_of_bits32 {acc : Accumulator} {function : AggregateFunction} {value : Int}
    (h : acc.exact function = value) (hbits : Bits32 value) :
    acc.result function = .ok (Int32.ofInt value) := by
  subst h
  exact if_pos hbits

theorem result_half (value : Int) (h : 4 ≤ value.natAbs) :
    ∃ x y, result ⟨value, value.natAbs / 2⟩ .avg = .ok x ∧
      result ⟨value, value.natAbs / 2 + 1⟩ .avg = .ok y ∧ x ≠ y := by
  obtain ⟨htwice, honce⟩ := tdiv_half h
  have hsign := Int.natAbs_eq value
  generalize value.natAbs = n at htwice honce hsign ⊢
  rcases hsign with rfl | rfl
  · exact ⟨_, _, result_of_bits32 htwice (by decide), result_of_bits32 honce (by decide), by decide⟩
  · have htwice' : (-(n : Int)).tdiv (n / 2 : Nat) = -2 := by rw [Int.neg_tdiv, htwice]
    have honce' : (-(n : Int)).tdiv (n / 2 + 1 : Nat) = -1 := by rw [Int.neg_tdiv, honce]
    exact ⟨_, _, result_of_bits32 htwice' (by decide), result_of_bits32 honce' (by decide), by decide⟩

theorem next?_eq_none {function : AggregateFunction} {running : Int} {value : Option Int} :
    next? function running value = none ↔
      (function = .sum ∨ function = .avg) ∧ ∃ v, value = some v ∧ ¬Bits64 (running + v) := by
  cases value with
  | none => simp [next?]
  | some v => cases function <;> simp [next?, checkedAdd_eq_none]

/-- At most so many tuples are counted, the running value has 64 bits, and it is a sum of as many integers of
32 bits. -/
structure Within (most : Nat) (acc : Accumulator) : Prop where
  count : acc.count ≤ most
  bits : Bits64 acc.value
  low : -2147483648 * acc.count ≤ acc.value
  high : acc.value ≤ 2147483647 * acc.count

theorem within_start {most : Nat} {value : Option Int} (hvalue : ∀ v, value = some v → Bits32 v) :
    (start value).Within (most + 1) := by
  have hbits : Bits32 (value.getD 0) := by
    cases value with
    | none => exact bits32_toInt 0
    | some v => exact hvalue v rfl
  rw [Bits32] at hbits
  simp only [start]
  constructor <;> simp only [Bits64] <;> omega

theorem Within.mono {most more : Nat} {acc : Accumulator} (h : acc.Within most) (hle : most ≤ more) :
    acc.Within more :=
  { h with count := Nat.le_trans h.count hle }

theorem Within.recounted {most : Nat} {acc : Accumulator} (h : acc.Within most) :
    (acc.recounted 1).Within (most + 1) := by
  obtain ⟨hcount, hbits, hlow, hhigh⟩ := h
  constructor
  case bits => exact hbits
  all_goals
    simp only [Accumulator.recounted]
    omega

theorem Within.next {most : Nat} {acc : Accumulator} (h : acc.Within most) {function : AggregateFunction}
    {value : Option Int} (hvalue : ∀ v, value = some v → Bits32 v) {running : Int}
    (hnext : next? function acc.value value = some running) :
    Within (most + 1) ⟨running, acc.count + 1⟩ := by
  cases value with
  | none =>
    cases hnext
    exact h.recounted
  | some v =>
    obtain ⟨hcount, hbits, hlow, hhigh⟩ := h
    have hv := hvalue v rfl
    rw [Bits32] at hv
    cases function with
    | min | max =>
      cases hnext
      rw [Bits64] at hbits
      constructor <;> simp only [Bits64] <;> omega
    | count =>
      cases hnext
      exact Within.recounted ⟨hcount, hbits, hlow, hhigh⟩
    | sum | avg =>
      obtain ⟨hsum, rfl⟩ := checkedAdd_eq_some.mp hnext
      refine ⟨?_, hsum, ?_, ?_⟩ <;> dsimp only <;> omega

theorem Within.result_avg {most : Nat} {acc : Accumulator} (h : acc.Within most) :
    acc.result .avg = .ok (Int32.ofInt (acc.value.tdiv acc.count)) :=
  result_of_bits32 rfl (bits32_tdiv h.low h.high)

end Accumulator

/-- The running values of the groups, without the numbers of their tuples. -/
def Groups.running (groups : Groups) : Assoc (Option Field) Int := Assoc.map Accumulator.value groups

namespace Groups

@[simp] theorem get?_running (groups : Groups) (key : Option Field) :
    groups.running.get? key = (Assoc.get? groups key).map Accumulator.value :=
  Assoc.get?_map _ _ _

theorem running_insert (groups : Groups) (key : Option Field) (acc : Accumulator) :
    Groups.running (Assoc.insert groups key acc) = groups.running.insert key acc.value :=
  Assoc.map_insert _ _ _ _

end Groups

/-- A call to running groups. -/
inductive GroupCall where
  | merge (t : Tuple)
  | clear

namespace Aggregation

def perform (aggregation : Aggregation) : GroupCall → EStateM StoreError Groups Unit
  | .merge t => aggregation.merge t
  | .clear => fun _ => .ok () ⟨[]⟩

/-- The groups that the call leaves. -/
def leaves (aggregation : Aggregation) (call : GroupCall) (groups : Groups) : Groups :=
  match aggregation.perform call groups with
  | .ok _ groups => groups
  | .error _ groups => groups

/-- What the call answers. -/
def answer (aggregation : Aggregation) (call : GroupCall) (groups : Groups) : Except StoreError Unit :=
  match aggregation.perform call groups with
  | .ok _ _ => .ok ()
  | .error e _ => .error e

def run (aggregation : Aggregation) : List GroupCall → Groups → Groups
  | [], groups => groups
  | call :: calls, groups => aggregation.run calls (aggregation.leaves call groups)

def answers (aggregation : Aggregation) : List GroupCall → Groups → List (Except StoreError Unit)
  | [], _ => []
  | call :: calls, groups =>
    aggregation.answer call groups :: aggregation.answers calls (aggregation.leaves call groups)

/-- What a merge reads of the tuple: its key, and its integer if the field is one. -/
def reading (aggregation : Aggregation) (t : Tuple) : Except StoreError (Option Field × Option Int) :=
  match aggregation.key t, t.field aggregation.field with
  | .error e, _ => .error e
  | .ok _, .error e => .error e
  | .ok key, .ok field => .ok (key, field.asInt.map Int32.toInt)

variable {aggregation : Aggregation} {t : Tuple} {groups other : Groups}

theorem run_append (calls more : List GroupCall) (groups : Groups) :
    aggregation.run (calls ++ more) groups = aggregation.run more (aggregation.run calls groups) := by
  induction calls generalizing groups with
  | nil => rfl
  | cons call calls ih => exact ih _

/-- A merge is decided by what it reads and by the running value of the group. -/
theorem merge_eq (aggregation : Aggregation) (t : Tuple) (groups : Groups) :
    aggregation.merge t groups =
      match aggregation.reading t with
      | .error e => .error e groups
      | .ok (key, value) =>
        match groups.get? key with
        | none => .ok () (groups.insert key (.start value))
        | some acc =>
          match Accumulator.next? aggregation.function acc.value value with
          | some running => .ok () (groups.insert key ⟨running, acc.count + 1⟩)
          | none => .error (.aggregateOverflow aggregation.function.text acc.value)
              (groups.insert key (acc.recounted 1)) := by
  rw [merge, reading]
  cases aggregation.key t with
  | error e => rfl
  | ok key =>
    cases t.field aggregation.field with
    | error e => rfl
    | ok field =>
      cases hgroup : groups.get? key with
      | none => simp only [hgroup]
      | some acc =>
        simp only [hgroup, Accumulator.add_eq]
        cases Accumulator.next? aggregation.function acc.value (field.asInt.map Int32.toInt) <;> rfl

theorem reading_bits {key : Option Field} {value : Option Int} (h : aggregation.reading t = .ok (key, value))
    {v : Int} (hv : value = some v) : Bits32 v := by
  unfold reading at h
  split at h
  · cases h
  · cases h
  · cases h
    obtain ⟨bits, _, rfl⟩ := Option.map_eq_some_iff.mp hv
    exact bits32_toInt bits

theorem reading_eq_error {e : StoreError} (h : aggregation.reading t = .error e) :
    ∃ index, (aggregation.group = some index ∨ aggregation.field = index) ∧ t.fields.length ≤ index ∧
      e = .fieldIndexOutOfRange index t.fields.length := by
  unfold reading at h
  split at h
  · next hkey =>
    cases h
    unfold Aggregation.key at hkey
    cases hgroup : aggregation.group with
    | none => simp [hgroup] at hkey
    | some index =>
      simp only [hgroup] at hkey
      cases hfield : t.field index with
      | error e =>
        rw [hfield] at hkey
        cases hkey
        exact ⟨index, Or.inl rfl, Tuple.field_eq_error hfield⟩
      | ok field => simp [hfield, Except.map] at hkey
  · next hfield =>
    cases h
    exact ⟨aggregation.field, Or.inr rfl, Tuple.field_eq_error hfield⟩
  · cases h

theorem step_running (aggregation : Aggregation) (h : groups.running = other.running) (call : GroupCall) :
    aggregation.answer call groups = aggregation.answer call other ∧
      (aggregation.leaves call groups).running = (aggregation.leaves call other).running := by
  cases call with
  | clear => exact ⟨rfl, rfl⟩
  | merge t =>
    simp only [answer, leaves, perform, merge_eq]
    cases aggregation.reading t with
    | error e => exact ⟨rfl, h⟩
    | ok read =>
      obtain ⟨key, value⟩ := read
      have hkey : (groups.get? key).map Accumulator.value = (other.get? key).map Accumulator.value := by
        rw [← groups.get?_running, ← other.get?_running, h]
      cases hgroup : groups.get? key with
      | none =>
        have hother : other.get? key = none := by simpa [hgroup] using hkey.symm
        simp only [hgroup, hother, Groups.running_insert, h, and_self]
      | some acc =>
        rw [hgroup, Option.map_some] at hkey
        obtain ⟨acc', hother, hvalue⟩ := Option.map_eq_some_iff.mp hkey.symm
        simp only [hgroup, hother, hvalue]
        cases Accumulator.next? aggregation.function acc.value value <;>
          simp [Groups.running_insert, h, Accumulator.recounted, hvalue]

theorem answers_running (h : groups.running = other.running) (calls : List GroupCall) :
    aggregation.answers calls groups = aggregation.answers calls other := by
  induction calls generalizing groups other with
  | nil => rfl
  | cons call calls ih =>
    obtain ⟨hanswer, hleaves⟩ := step_running aggregation h call
    rw [answers, answers, hanswer, ih hleaves]

theorem running_run (h : groups.running = other.running) (calls : List GroupCall) :
    (aggregation.run calls groups).running = (aggregation.run calls other).running := by
  induction calls generalizing groups other with
  | nil => exact h
  | cons call calls ih => exact ih (step_running aggregation h call).2

theorem rows_running (hsum : aggregation.function = .sum) (h : groups.running = other.running) :
    aggregation.rows groups = aggregation.rows other := by
  have hrows (groups : Groups) : aggregation.rows groups =
      groups.running.entries.mapM fun entry => aggregation.row entry.1 ⟨entry.2, 1⟩ := by
    rw [rows, Groups.running, Assoc.map, List.mapM_map]
    refine mapM_congr fun entry _ => ?_
    simp only [row, Accumulator.result, hsum, Accumulator.exact, Function.comp_apply]
  rw [hrows, hrows, h]

end Aggregation

/-- No key has two groups, and all groups are within bounds. -/
structure Groups.Tallied (most : Nat) (groups : Groups) : Prop where
  keys : groups.keys.Nodup
  group : ∀ key acc, groups.get? key = some acc → acc.Within most

namespace Groups.Tallied
variable {groups : Groups} {most : Nat}

theorem empty (most : Nat) : Groups.Tallied most ⟨[]⟩ := by
  refine ⟨List.nodup_nil, fun key acc hfound => ?_⟩
  cases hfound

theorem mono (h : groups.Tallied most) {more : Nat} (hle : most ≤ more) : groups.Tallied more :=
  ⟨h.keys, fun key acc hfound => (h.group key acc hfound).mono hle⟩

theorem insert (h : groups.Tallied most) (key : Option Field) {acc : Accumulator} (hacc : acc.Within most) :
    Groups.Tallied most (Assoc.insert groups key acc) := by
  refine ⟨Assoc.nodup_keys_insert h.keys key acc, fun other found hfound => ?_⟩
  rw [Assoc.get?_insert] at hfound
  split at hfound
  · cases hfound
    exact hacc
  · exact h.group other found hfound

end Groups.Tallied

namespace Aggregation
variable {aggregation : Aggregation} {t : Tuple} {groups other : Groups}

theorem tallied_leaves {most : Nat} (h : groups.Tallied most) (call : GroupCall) :
    (aggregation.leaves call groups).Tallied (most + 1) := by
  cases call with
  | clear => exact .empty _
  | merge t =>
    have hmore := h.mono (Nat.le_succ most)
    simp only [leaves, perform, merge_eq]
    cases hread : aggregation.reading t with
    | error e => exact hmore
    | ok read =>
      obtain ⟨key, value⟩ := read
      have hvalue (v : Int) (hv : value = some v) : Bits32 v := reading_bits hread hv
      cases hgroup : groups.get? key with
      | none =>
        simp only [hgroup]
        exact hmore.insert key (Accumulator.within_start hvalue)
      | some acc =>
        have hacc := h.group key acc hgroup
        simp only [hgroup]
        cases hnext : Accumulator.next? aggregation.function acc.value value with
        | none => exact hmore.insert key hacc.recounted
        | some running => exact hmore.insert key (hacc.next hvalue hnext)

theorem tallied_run (aggregation : Aggregation) {most : Nat} (h : groups.Tallied most) (calls : List GroupCall) :
    (aggregation.run calls groups).Tallied (most + calls.length) := by
  induction calls generalizing groups most with
  | nil => exact h
  | cons call calls ih =>
    rw [List.length_cons, Nat.add_comm calls.length, ← Nat.add_assoc]
    exact ih (tallied_leaves h call)

/-- The integer of the tuple takes the sum of its group out of 64 bits. -/
structure Overflows (aggregation : Aggregation) (groups : Groups) (t : Tuple) (key : Option Field)
    (acc : Accumulator) : Prop where
  function : aggregation.function = .sum ∨ aggregation.function = .avg
  group : groups.get? key = some acc
  value : ∃ v, aggregation.reading t = .ok (key, some v) ∧ ¬Bits64 (acc.value + v)

namespace Overflows
variable {key : Option Field} {acc : Accumulator}

/-- Such a tuple is refused, and counted. -/
theorem merge_eq (h : aggregation.Overflows groups t key acc) :
    aggregation.merge t groups = .error (.aggregateOverflow aggregation.function.text acc.value)
      (groups.insert key (acc.recounted 1)) := by
  obtain ⟨v, hread, hbits⟩ := h.value
  have hnext : Accumulator.next? aggregation.function acc.value (some v) = none :=
    Accumulator.next?_eq_none.mpr ⟨h.function, v, rfl, hbits⟩
  simp only [Aggregation.merge_eq, hread, h.group, hnext]

theorem insert_ne (h : aggregation.Overflows groups t key acc) :
    groups.insert key (acc.recounted 1) ≠ groups := by
  intro hsame
  have hcounted : groups.get? key = some (acc.recounted 1) := by
    rw [← hsame, Assoc.get?_insert_self]
  rw [h.group, Option.some.injEq] at hcounted
  exact Nat.ne_of_lt (Nat.lt_succ_self _) (congrArg Accumulator.count hcounted)

theorem recounted (h : aggregation.Overflows groups t key acc) (more : Nat) :
    aggregation.Overflows (groups.insert key (acc.recounted more)) t key (acc.recounted more) :=
  ⟨h.function, Assoc.get?_insert_self _ _ _, h.value⟩

theorem run_replicate (h : aggregation.Overflows groups t key acc) (hnodup : groups.keys.Nodup)
    (times : Nat) :
    aggregation.run (List.replicate times (.merge t)) groups = groups.insert key (acc.recounted times) := by
  induction times generalizing groups acc with
  | zero => exact (Assoc.insert_eq_self hnodup h.group).symm
  | succ times ih =>
    have hleaves : aggregation.leaves (.merge t) groups = groups.insert key (acc.recounted 1) := by
      simp only [leaves, perform, h.merge_eq]
    rw [List.replicate_succ, run, hleaves, ih (h.recounted 1) (Assoc.nodup_keys_insert hnodup key _),
      Assoc.insert_insert (Assoc.mem_keys_of_get? h.group), Accumulator.recounted_recounted, Nat.add_comm 1]

end Overflows

theorem merge_eq_error {e : StoreError} {left : Groups} (h : aggregation.merge t groups = .error e left) :
    (left = groups ∧ ∃ index, (aggregation.group = some index ∨ aggregation.field = index) ∧
      t.fields.length ≤ index ∧ e = .fieldIndexOutOfRange index t.fields.length) ∨
    ∃ key acc, aggregation.Overflows groups t key acc ∧
      e = .aggregateOverflow aggregation.function.text acc.value ∧
      left = groups.insert key (acc.recounted 1) := by
  rw [merge_eq] at h
  cases hread : aggregation.reading t with
  | error e' =>
    rw [hread] at h
    cases h
    exact Or.inl ⟨rfl, reading_eq_error hread⟩
  | ok read =>
    obtain ⟨key, value⟩ := read
    simp only [hread] at h
    cases hgroup : groups.get? key with
    | none => simp [hgroup] at h
    | some acc =>
      simp only [hgroup] at h
      cases hnext : Accumulator.next? aggregation.function acc.value value with
      | some running => simp [hnext] at h
      | none =>
        rw [hnext] at h
        cases h
        obtain ⟨hfunction, v, rfl, hbits⟩ := Accumulator.next?_eq_none.mp hnext
        exact Or.inr ⟨key, acc, ⟨hfunction, hgroup, v, hread, hbits⟩, rfl, rfl⟩

theorem row_eq_ok {key : Option Field} {acc : Accumulator} {row : Tuple} :
    aggregation.row key acc = .ok row ↔ ∃ value, acc.result aggregation.function = .ok value ∧
      Tuple.ofFields aggregation.schema (key.toList ++ [.int value]) = .ok row := by
  unfold Aggregation.row
  cases acc.result aggregation.function <;> simp [bind, Except.bind]

theorem row_of_rows {rows : List Tuple} (hrows : aggregation.rows groups = .ok rows) {key : Option Field}
    {acc : Accumulator} (hgroup : groups.get? key = some acc) :
    ∃ (i : Nat) (row : Tuple), groups.keys[i]? = some key ∧ rows[i]? = some row ∧
      aggregation.row key acc = .ok row := by
  obtain ⟨i, hi, hentry⟩ := List.getElem_of_mem (Assoc.mem_entries_of_get? hgroup)
  have hall := forall₂_of_mapM hrows
  have hi' : i < rows.length := hall.length_eq ▸ hi
  have hrow := hall.get hi hi'
  simp only [List.get_eq_getElem, hentry] at hrow
  refine ⟨i, rows[i], ?_, List.getElem?_eq_getElem hi', hrow⟩
  rw [Assoc.keys, List.getElem?_map, List.getElem?_eq_getElem hi, hentry]
  rfl

theorem row_eq_of_rows_eq {rows : List Tuple} (hrows : aggregation.rows groups = .ok rows)
    (hother : aggregation.rows other = .ok rows) (hnodup : groups.keys.Nodup)
    (hkeys : groups.keys = other.keys) {key : Option Field} {acc acc' : Accumulator}
    (hgroup : groups.get? key = some acc) (hgroup' : other.get? key = some acc') :
    aggregation.row key acc = aggregation.row key acc' := by
  obtain ⟨i, row, hi, hat, hrow⟩ := row_of_rows hrows hgroup
  obtain ⟨j, row', hj, hat', hrow'⟩ := row_of_rows hother hgroup'
  obtain ⟨hlt, _⟩ := List.getElem?_eq_some_iff.mp hi
  have hplace : i = j := (List.getElem?_inj hlt hnodup).mp (by rw [hi, hkeys, hj])
  rw [hplace, hat', Option.some.injEq] at hat
  rw [hrow, hrow', hat]

section
variable {rows : List Tuple} {key : Option Field} {acc a b : Accumulator} {x y : Int32}

theorem exists_rows_insert (hrows : aggregation.rows groups = .ok rows) (hnodup : groups.keys.Nodup)
    (hgroup : groups.get? key = some acc) (ha : a.result aggregation.function = .ok x) :
    ∃ rows', aggregation.rows (groups.insert key a) = .ok rows' := by
  refine exists_mapM_eq_ok fun entry hmem => ?_
  have hfound := Assoc.get?_of_mem_entries (Assoc.nodup_keys_insert hnodup key a) hmem
  rw [Assoc.get?_insert] at hfound
  split at hfound
  · next hkey =>
    obtain ⟨_, row, _, _, hrow⟩ := row_of_rows hrows hgroup
    obtain ⟨value, _, hfields⟩ := row_eq_ok.mp hrow
    rw [hkey, ← Option.some.inj hfound]
    exact ⟨_, row_eq_ok.mpr ⟨x, ha, Tuple.ofFields_int hfields x⟩⟩
  · obtain ⟨_, row, _, _, hrow⟩ := row_of_rows hrows hfound
    exact ⟨row, hrow⟩

theorem rows_insert_ne (hrows : aggregation.rows groups = .ok rows) (hnodup : groups.keys.Nodup)
    (hgroup : groups.get? key = some acc) (ha : a.result aggregation.function = .ok x)
    (hb : b.result aggregation.function = .ok y) (hne : x ≠ y) :
    aggregation.rows (groups.insert key a) ≠ aggregation.rows (groups.insert key b) := by
  intro hsame
  obtain ⟨rows', hfirst⟩ := exists_rows_insert hrows hnodup hgroup ha
  have hrow := row_eq_of_rows_eq hfirst (hsame ▸ hfirst) (Assoc.nodup_keys_insert hnodup key a)
    (by rw [Assoc.keys_insert, Assoc.keys_insert]) (Assoc.get?_insert_self _ _ _)
    (Assoc.get?_insert_self _ _ _)
  obtain ⟨_, row, _, _, hok⟩ := row_of_rows hfirst (Assoc.get?_insert_self _ _ _)
  obtain ⟨x', hx, hxfields⟩ := row_eq_ok.mp hok
  obtain ⟨y', hy, hyfields⟩ := row_eq_ok.mp (hrow ▸ hok)
  rw [ha, Except.ok.injEq] at hx
  rw [hb, Except.ok.injEq] at hy
  have hfields := (Tuple.ofFields_int hxfields x').symm.trans
    (hxfields.trans (hyfields.symm.trans (Tuple.ofFields_int hyfields y')))
  simp only [Except.ok.injEq, Tuple.mk.injEq, List.append_cancel_left_eq, List.cons.injEq, Field.int.injEq,
    and_true, true_and] at hfields
  exact hne (hx.trans (hfields.trans hy.symm))

/-- An average shows at last that the tuple was counted once more: merged again and again, it takes the count
to half of the sum. -/
theorem Overflows.noticed {groups : Groups} (h : aggregation.Overflows groups t key acc)
    (havg : aggregation.function = .avg) {most : Nat} (htallied : groups.Tallied most)
    (hmost : most ≤ 4611686017353646080) (hrows : aggregation.rows groups = .ok rows) :
    ∃ times ≤ 4611686018427387904,
      aggregation.rows (aggregation.run (List.replicate times (.merge t)) (groups.insert key (acc.recounted 1))) ≠
        aggregation.rows (aggregation.run (List.replicate times (.merge t)) groups) := by
  obtain ⟨v, hread, hoverflow⟩ := h.value
  obtain ⟨hcount, hbits, _, _⟩ := htallied.group key acc h.group
  have hv := reading_bits hread rfl
  rw [Bits32] at hv
  rw [Bits64] at hbits hoverflow
  -- The tuple is merged, and refused, until the count is half of the sum.
  obtain ⟨times, htimes⟩ : ∃ times, acc.count + times = acc.value.natAbs / 2 :=
    ⟨acc.value.natAbs / 2 - acc.count, by omega⟩
  obtain ⟨x, y, hx, hy, hne⟩ := Accumulator.result_half acc.value (by omega)
  refine ⟨times, by omega, ?_⟩
  rw [(h.recounted 1).run_replicate (Assoc.nodup_keys_insert htallied.keys key _) times,
    h.run_replicate htallied.keys times, Assoc.insert_insert (Assoc.mem_keys_of_get? h.group),
    Accumulator.recounted_recounted]
  refine rows_insert_ne hrows htallied.keys h.group (x := y) (y := x) ?_ ?_ hne.symm
  · rw [havg, ← hy, Accumulator.recounted, ← htimes]
    congr 2
    omega
  · rw [havg, ← hx, Accumulator.recounted, htimes]

end

/-- The key fits the rows. -/
def fits (aggregation : Aggregation) (key : Option Field) : Except StoreError Unit :=
  (Tuple.ofFields aggregation.schema (key.toList ++ [.int 0])).map fun _ => ()

/-- Averages have rows unless a key does not fit. -/
theorem map_rows_avg (havg : aggregation.function = .avg) {most : Nat} (h : groups.Tallied most) :
    (aggregation.rows groups).map (fun _ => ()) = forM groups.keys aggregation.fits := by
  have hrow (entry : Option Field × Accumulator) (hmem : entry ∈ groups.entries) :
      (aggregation.row entry.1 entry.2).map (fun _ => ()) = aggregation.fits entry.1 := by
    have hwithin := h.group entry.1 entry.2 (Assoc.get?_of_mem_entries h.keys hmem)
    rw [Aggregation.row, havg, hwithin.result_avg, fits]
    exact Tuple.map_ofFields_int _ _ _ 0
  exact map_mapM hrow

theorem rows_eq_error (havg : aggregation.function = .avg) {most : Nat} (h : groups.Tallied most)
    {e : StoreError} : aggregation.rows groups = .error e ↔ forM groups.keys aggregation.fits = .error e := by
  rw [← map_rows_avg havg h]
  cases aggregation.rows groups <;> simp [Except.map]

theorem misfit_leaves {e : StoreError} (h : forM groups.keys aggregation.fits = .error e) (t : Tuple) :
    forM (aggregation.leaves (.merge t) groups).keys aggregation.fits = .error e := by
  have hinsert (key : Option Field) (acc : Accumulator) :
      forM (groups.insert key acc).keys aggregation.fits = .error e := by
    rw [Assoc.keys_insert]
    split
    · exact h
    · rw [List.forM_append, h]
      rfl
  simp only [leaves, perform, merge_eq]
  cases aggregation.reading t with
  | error e => exact h
  | ok read =>
    obtain ⟨key, value⟩ := read
    cases hgroup : groups.get? key with
    | none =>
      simp only [hgroup]
      exact hinsert _ _
    | some acc =>
      simp only [hgroup]
      cases Accumulator.next? aggregation.function acc.value value <;> exact hinsert _ _

theorem rows_run_of_misfit (havg : aggregation.function = .avg) {most : Nat} {e : StoreError}
    (h : groups.Tallied most) (hother : other.Tallied most)
    (hmisfit : forM groups.keys aggregation.fits = .error e)
    (hmisfit' : forM other.keys aggregation.fits = .error e) (calls : List GroupCall) :
    aggregation.rows (aggregation.run calls groups) = aggregation.rows (aggregation.run calls other) := by
  induction calls generalizing groups other most with
  | nil => exact ((rows_eq_error havg h).mpr hmisfit).trans ((rows_eq_error havg hother).mpr hmisfit').symm
  | cons call calls ih =>
    cases call with
    | clear => rfl
    | merge t =>
      exact ih (tallied_leaves h (.merge t)) (tallied_leaves hother (.merge t)) (misfit_leaves hmisfit t)
        (misfit_leaves hmisfit' t)

theorem run_replicate_merge (hfunction : aggregation.function = .sum ∨ aggregation.function = .avg)
    {key : Option Field} {value : Int} (hread : aggregation.reading t = .ok (key, some value)) {times : Nat}
    (hpos : 0 < times) (hbits : ∀ n ≤ times, Bits64 (n * value)) :
    aggregation.run (List.replicate times (.merge t)) ⟨[]⟩ = ⟨[(key, ⟨times * value, times⟩)]⟩ := by
  induction times with
  | zero => exact absurd hpos (Nat.lt_irrefl 0)
  | succ times ih =>
    rcases Nat.eq_zero_or_pos times with rfl | hsome
    · simp [run, leaves, perform, merge_eq, hread, Assoc.insert, Assoc.contains, Accumulator.start]
    · have hnext : Accumulator.next? aggregation.function (times * value) (some value) =
          some ((times + 1 : Nat) * value) := by
        have hsum : times * value + value = (times + 1 : Nat) * value := by
          rw [Int.natCast_succ, Int.add_mul, Int.one_mul]
        have hadd := Accumulator.checkedAdd_eq_some.mpr ⟨hsum ▸ hbits (times + 1) (Nat.le_refl _), hsum⟩
        rcases hfunction with hfunction | hfunction <;> rw [hfunction] <;> exact hadd
      rw [List.replicate_succ', run_append, ih hsome fun n hn => hbits n (Nat.le_succ_of_le hn)]
      simp [run, leaves, perform, merge_eq, hread, hnext, Assoc.get?, Assoc.lookup, Assoc.insert,
        Assoc.contains, Assoc.modify]

theorem overflows_after_least (hfunction : aggregation.function = .sum ∨ aggregation.function = .avg)
    {key : Option Field} (hread : aggregation.reading t = .ok (key, some (-2147483648))) :
    let groups : Groups := ⟨[(key, ⟨-9223372036854775808, 4294967296⟩)]⟩
    aggregation.run (List.replicate 4294967296 (.merge t)) ⟨[]⟩ = groups ∧
      aggregation.Overflows groups t key ⟨-9223372036854775808, 4294967296⟩ := by
  intro groups
  refine ⟨?_, hfunction, ?_, -2147483648, hread, ?_⟩
  · exact run_replicate_merge hfunction hread (by decide) fun n hn => by
      rw [Bits64]
      omega
  · simp [groups, Assoc.get?, Assoc.lookup]
  · rw [Bits64]
    decide

theorem Accepts.rows_ungrouped {input : Schema} (h : aggregation.Accepts input)
    (hgroup : aggregation.group = none) {acc : Accumulator} {value : Int}
    (hexact : acc.exact aggregation.function = value) (hbits : Bits32 value) :
    aggregation.rows ⟨[(none, acc)]⟩ = .ok [aggregation.resultRow none value] := by
  have hrow : aggregation.row none acc = .ok (aggregation.resultRow none value) :=
    row_eq_ok.mpr ⟨_, Accumulator.result_of_bits32 hexact hbits, h.ofFields_ungrouped hgroup _⟩
  rw [rows, List.mapM_cons, hrow]
  rfl

/-- A merge fails on a tuple that is too short, and leaves the groups, or on an integer that takes the sum of
its group out of 64 bits, and then the group counts the tuple all the same. Later calls answer as they would
have without it. So do the rows, unless they are averages that could be made before: then some later rows
differ, and no count has left the 64 bits by then. Counts have no bound here, so where they have 64 bits the
two statements on all later calls are about fewer than 2^63 merges. -/
theorem rows_after_failed_merge (aggregation : Aggregation) (before : List GroupCall) {t : Tuple}
    {e : StoreError} {left : Groups}
    (hfail : aggregation.merge t (aggregation.run before ⟨[]⟩) = .error e left) :
    let groups := aggregation.run before ⟨[]⟩
    ((left = groups ∧ ∃ index, (aggregation.group = some index ∨ aggregation.field = index) ∧
        t.fields.length ≤ index ∧ e = .fieldIndexOutOfRange index t.fields.length) ∨
      ∃ key acc, aggregation.Overflows groups t key acc ∧
        e = .aggregateOverflow aggregation.function.text acc.value ∧
        left = groups.insert key (acc.recounted 1)) ∧
      (∀ later, aggregation.answers later left = aggregation.answers later groups) ∧
      (left = groups ∨ aggregation.function ≠ .avg ∨ (∃ misfit, aggregation.rows groups = .error misfit) →
        ∀ later, aggregation.rows (aggregation.run later left) =
          aggregation.rows (aggregation.run later groups)) ∧
      (left ≠ groups → aggregation.function = .avg → (∃ rows, aggregation.rows groups = .ok rows) →
        before.length ≤ 4611686017353646080 → ∃ later, later.length ≤ 4611686018427387904 ∧
          aggregation.rows (aggregation.run later left) ≠
            aggregation.rows (aggregation.run later groups)) := by
  intro groups
  have htallied : groups.Tallied before.length := by
    have htallied := tallied_run aggregation (Groups.Tallied.empty 0) before
    rwa [Nat.zero_add] at htallied
  rcases merge_eq_error hfail with hshort | ⟨key, acc, hoverflow, he, hleft⟩
  · have hleft := hshort.1
    refine ⟨Or.inl hshort, ?_, ?_, fun hne => absurd hleft hne⟩
    · rw [hleft]
      exact fun _ => rfl
    · rw [hleft]
      exact fun _ _ => rfl
  · have hrunning : left.running = groups.running := by
      rw [hleft, Groups.running_insert]
      exact Assoc.insert_eq_self (by rw [Groups.running, Assoc.keys_map]; exact htallied.keys)
        (by rw [Groups.get?_running, hoverflow.group]; rfl)
    refine ⟨Or.inr ⟨key, acc, hoverflow, he, hleft⟩, answers_running hrunning, ?_, ?_⟩
    · rintro hquiet later
      rcases hoverflow.function with hsum | havg
      · exact rows_running hsum (running_run hrunning later)
      · obtain ⟨misfit, hmisfit⟩ : ∃ misfit, aggregation.rows groups = .error misfit := by
          rcases hquiet with hsame | hother | hmisfit
          · exact absurd (hleft.symm.trans hsame) hoverflow.insert_ne
          · exact absurd havg hother
          · exact hmisfit
        have hkeys : left.keys = groups.keys := by
          rw [hleft, Assoc.keys_insert, if_pos (Assoc.mem_keys_of_get? hoverflow.group)]
        have htallied' : left.Tallied (before.length + 1) := by
          rw [hleft]
          exact (htallied.mono (Nat.le_succ _)).insert key (htallied.group key acc hoverflow.group).recounted
        have hmisfit' := (rows_eq_error havg htallied).mp hmisfit
        exact rows_run_of_misfit havg htallied' (htallied.mono (Nat.le_succ _)) (hkeys ▸ hmisfit') hmisfit' later
    · rintro _ havg ⟨rows, hrows⟩ hfew
      obtain ⟨times, htimes, hne⟩ := hoverflow.noticed havg htallied hfew hrows
      refine ⟨List.replicate times (.merge t), by rwa [List.length_replicate], ?_⟩
      rwa [hleft]

/-- A sum stays where it was, and an average moves at once. -/
theorem rows_after_failed_merge_least :
    let input : Schema := ⟨[{ type := .integer }], List.cons_ne_nil _ _⟩
    let t : Tuple := ⟨input, [.int (-2147483648)], none⟩
    let before := List.replicate 4294967296 (GroupCall.merge t)
    ∃ sum avg e e' left left' rows, ofSchema input none 0 .sum = .ok sum ∧
      ofSchema input none 0 .avg = .ok avg ∧
      sum.merge t (sum.run before ⟨[]⟩) = .error e left ∧ sum.function ≠ .avg ∧
      (∀ later, sum.rows (sum.run later left) = sum.rows (sum.run later (sum.run before ⟨[]⟩))) ∧
      avg.merge t (avg.run before ⟨[]⟩) = .error e' left' ∧ before.length ≤ 4611686017353646080 ∧
      avg.rows (avg.run before ⟨[]⟩) = .ok rows ∧ left' ≠ avg.run before ⟨[]⟩ ∧ avg.function = .avg ∧
      ∃ later, later.length ≤ 4611686018427387904 ∧
        avg.rows (avg.run later left') ≠ avg.rows (avg.run later (avg.run before ⟨[]⟩)) := by
  intro input t before
  obtain ⟨sum, hsum⟩ : ∃ sum, ofSchema input none 0 .sum = .ok sum := ⟨_, rfl⟩
  obtain ⟨avg, havg⟩ : ∃ avg, ofSchema input none 0 .avg = .ok avg := ⟨_, rfl⟩
  obtain ⟨hsumFunction, hsumField, hsumGroup, _⟩ := accepts_of_ofSchema hsum
  obtain ⟨havgFunction, havgField, havgGroup, haccepts⟩ := accepts_of_ofSchema havg
  have hread {aggregation : Aggregation} (hfield : aggregation.field = 0) (hgroup : aggregation.group = none) :
      aggregation.reading t = .ok (none, some (-2147483648)) := by
    rw [reading, key, hgroup, hfield]
    rfl
  obtain ⟨hsumRun, hsumOverflow⟩ := overflows_after_least (Or.inl hsumFunction) (hread hsumField hsumGroup)
  obtain ⟨havgRun, havgOverflow⟩ := overflows_after_least (Or.inr havgFunction) (hread havgField havgGroup)
  have hsumFail := hsumOverflow.merge_eq
  have havgFail := havgOverflow.merge_eq
  rw [← hsumRun] at hsumFail
  rw [← havgRun] at havgFail
  have hnotAvg : sum.function ≠ .avg := by
    rw [hsumFunction]
    decide
  have hfew : before.length ≤ 4611686017353646080 := by
    rw [List.length_replicate]
    decide
  have hrows : avg.rows (avg.run before ⟨[]⟩) = .ok [avg.resultRow none (-2147483648)] := by
    rw [havgRun]
    exact haccepts.rows_ungrouped havgGroup (by rw [havgFunction]; decide) (by decide)
  have hchanged := havgOverflow.insert_ne
  rw [← havgRun] at hchanged
  obtain ⟨_, _, hquiet, _⟩ := rows_after_failed_merge sum before hsumFail
  obtain ⟨_, _, _, hnoticed⟩ := rows_after_failed_merge avg before havgFail
  exact ⟨sum, avg, _, _, _, _, _, hsum, havg, hsumFail, hnotAvg, hquiet (Or.inr (Or.inl hnotAvg)), havgFail, hfew,
    hrows, hchanged, havgFunction, hnoticed hchanged havgFunction ⟨_, hrows⟩ hfew⟩

/-- The average of 2^32 least integers grows by one when one more of them is refused. -/
theorem average_moved_by_refused_tuple :
    let input : Schema := ⟨[{ type := .integer }], List.cons_ne_nil _ _⟩
    let t : Tuple := ⟨input, [.int (-2147483648)], none⟩
    let before := List.replicate 4294967296 (GroupCall.merge t)
    ∃ aggregation left, ofSchema input none 0 .avg = .ok aggregation ∧
      aggregation.merge t (aggregation.run before ⟨[]⟩) =
        .error (.aggregateOverflow "avg" (-9223372036854775808)) left ∧
      aggregation.rows (aggregation.run before ⟨[]⟩) = .ok [aggregation.resultRow none (-2147483648)] ∧
      aggregation.rows left = .ok [aggregation.resultRow none (-2147483647)] := by
  intro input t before
  obtain ⟨aggregation, haggregation⟩ : ∃ aggregation, ofSchema input none 0 .avg = .ok aggregation := ⟨_, rfl⟩
  obtain ⟨hfunction, hfield, hgroup, haccepts⟩ := accepts_of_ofSchema haggregation
  have hread : aggregation.reading t = .ok (none, some (-2147483648)) := by
    rw [reading, key, hgroup, hfield]
    rfl
  obtain ⟨hrun, hoverflow⟩ := overflows_after_least (Or.inr hfunction) hread
  have hmerge := hoverflow.merge_eq
  rw [hfunction] at hmerge
  have hrows {acc : Accumulator} {value : Int} (h : acc.exact aggregation.function = value)
      (hbits : Bits32 value) :
      aggregation.rows ⟨[(none, acc)]⟩ = .ok [aggregation.resultRow none value] :=
    haccepts.rows_ungrouped hgroup h hbits
  refine ⟨aggregation, _, haggregation, by rw [hrun]; exact hmerge, ?_, ?_⟩
  · rw [hrun]
    exact hrows (by rw [hfunction]; decide) (by decide)
  · exact hrows (by rw [hfunction]; decide) (by decide)

end Aggregation
end RowStore

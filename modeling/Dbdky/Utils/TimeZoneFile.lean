import Dbdky.Utils.TimeZone

/-!
What comes of a zone file.

The `if` that compares the magic guards an empty statement, so the `try` block throws on
every file, and `readTimeZoneFile` returns true all the same.

* **`never_safe`.** Whatever the file, the `TimeZone` is valid and has no local time type
  to look up.
* **`table_never_read`.** No encoded table is decoded. The statements behind the check
  would do it: `readTables_encode`.
-/

namespace Dbdky.TimeZone

open Memory File

/-! ### Runs of a read -/

section Runs

variable {α β ι : Type} {m : Read α} {f : α → Read β} {s t u : Reader} {v : α} {w : β} {e : Stop}

/-- The read returns `v` and leaves `t`. -/
def Returns (m : Read α) (s : Reader) (v : α) (t : Reader) : Prop := m.run.run s = (.ok v, t)

/-- The read stops with `e` and leaves `t`. -/
def Stops (m : Read α) (s : Reader) (e : Stop) (t : Reader) : Prop := m.run.run s = (.error e, t)

theorem Returns.pure (v : α) (s : Reader) : Returns (pure v) s v s := rfl

theorem Stops.throw (e : Stop) (s : Reader) : Stops (throw e : Read α) s e s := rfl

theorem Returns.bind (first : Returns m s v t) (second : Returns (f v) t w u) :
    Returns (m >>= f) s w u := by
  change (do let r ← m.run; ExceptT.bindCont f r : StateM Reader _).run s = _
  rw [StateT.run_bind, first]
  exact second

theorem Returns.stops (first : Returns m s v t) (second : Stops (f v) t e u) :
    Stops (m >>= f) s e u := by
  change (do let r ← m.run; ExceptT.bindCont f r : StateM Reader _).run s = _
  rw [StateT.run_bind, first]
  exact second

theorem Stops.bind (first : Stops m s e t) : Stops (m >>= f) s e t := by
  change (do let r ← m.run; ExceptT.bindCont f r : StateM Reader _).run s = _
  rw [StateT.run_bind, first]
  rfl

theorem fread_returns (n : Nat) (s : Reader) :
    Returns (fread n) s (s.file.take n) { s with file := s.file.drop n } := rfl

theorem readBytes_returns {n : Nat} (enough : (s.file.take n).length = n) :
    Returns (readBytes n) s (s.file.take n) { s with file := s.file.drop n } := by
  unfold readBytes
  rw [if_neg (Int.not_lt.mpr (Int.natCast_nonneg n))]
  apply (fread_returns n s).bind
  rw [Int.toNat_natCast, if_neg (not_not_intro enough)]
  exact .pure _ _

theorem readBytes_stops {n : Nat} (short : (s.file.take n).length ≠ n) :
    Stops (readBytes n) s (.logicError "no enough data") { s with file := s.file.drop n } := by
  unfold readBytes
  rw [if_neg (Int.not_lt.mpr (Int.natCast_nonneg n))]
  apply (fread_returns n s).stops
  rw [Int.toNat_natCast, if_pos short]
  exact (Stops.throw _ _).bind

end Runs

/-! ### The magic -/

variable (host : ByteOrder)

/-- The block throws before it has stored anything. -/
theorem tryBlock_throws (s : Reader) :
    ∃ what file, Stops (tryBlock host) s (.logicError what) ⟨file, s.data⟩ := by
  by_cases enough : (s.file.take 4).length = 4
  · refine ⟨"bad head", s.file.drop 4, (readBytes_returns enough).stops ?_⟩
    split
    · exact (Stops.throw _ _).bind
    · exact (Stops.throw _ _).bind
  · exact ⟨"no enough data", s.file.drop 4, (readBytes_stops enough).bind⟩

theorem readTimeZoneFile_eq (zonefile : Option (List UInt8)) (data : Data) :
    readTimeZoneFile host zonefile data = some (true, data) := by
  cases zonefile with
  | none => rfl
  | some bytes =>
      obtain ⟨what, file, stops⟩ := tryBlock_throws host ⟨bytes, data⟩
      rw [readTimeZoneFile, stops]

theorem new_eq (zonefile : Option (List UInt8)) : new host zonefile = some ⟨some {}⟩ := by
  rw [new, readTimeZoneFile_eq]
  rfl

/-- The first conversion dereferences the front of an empty vector. -/
theorem toLocalTime_new {tz : TimeZone} {zonefile : Option (List UInt8)}
    (constructed : new host zonefile = some tz) (seconds : Int) :
    tz.toLocalTime seconds = none := by
  rw [new_eq] at constructed
  cases constructed
  rfl

/-- The data can be looked up: there is a type, and all indices are in range. -/
structure Data.Usable (data : Data) : Prop where
  localtimes : data.localtimes ≠ []
  localtimeIdx : ∀ t ∈ data.transitions, t.localtimeIdx < data.localtimes.length
  arrbIdx : ∀ type ∈ data.localtimes, type.arrbIdx < data.abbreviation.length

/-- No index is out of range while the file is read, nor later if the zone is valid. -/
def SafeToUse (zonefile : Option (List UInt8)) : Prop :=
  ∃ tz, new host zonefile = some tz ∧
    (tz.valid = true → ∃ data, tz.data = some data ∧ data.Usable)

/-- **A valid zone is not usable.** -/
theorem never_safe (zonefile : Option (List UInt8)) : ¬ SafeToUse host zonefile := by
  rintro ⟨tz, constructed, safe⟩
  rw [new_eq] at constructed
  cases constructed
  obtain ⟨data, ⟨⟩, usable⟩ := safe rfl
  exact usable.localtimes rfl

theorem missing_file_not_safe : ¬ SafeToUse .little none := by
  rintro ⟨tz, ⟨⟩, safe⟩
  obtain ⟨data, ⟨⟩, usable⟩ := safe rfl
  exact usable.localtimes rfl

/-! ### Encoded tables -/

structure Record where
  gmtoff : BitVec 32
  isdst : UInt8
  abbrind : UInt8
deriving DecidableEq, Repr

/-- The version 1 data block of a zone file. -/
structure Table where
  version : UInt8
  reserved : List UInt8
  isgmtcnt : BitVec 32
  isstdcnt : BitVec 32
  leapcnt : BitVec 32
  trans : List (BitVec 32)
  types : List UInt8
  records : List Record
  abbreviation : List UInt8
  length_reserved : reserved.length = 15
  length_types : types.length = trans.length
  types_lt : ∀ idx ∈ types, idx.toNat < records.length
  records_pos : 1 ≤ records.length
  trans_lt : trans.length < 2147483648
  records_lt : records.length < 2147483648
  abbreviation_lt : abbreviation.length < 2147483648

def int32 (x : BitVec 32) : List UInt8 := ByteOrder.big.bytes (n := 4) x

def Record.encode (r : Record) : List UInt8 := int32 r.gmtoff ++ [r.isdst] ++ [r.abbrind]

def Record.localtime (r : Record) : Localtime := ⟨r.gmtoff.toInt, r.isdst ≠ 0, r.abbrind.toNat⟩

namespace Table

variable (table : Table)

/-- The counts. -/
def header : List UInt8 :=
  int32 table.isgmtcnt ++ (int32 table.isstdcnt ++ (int32 table.leapcnt ++
    (int32 (.ofNat 32 table.trans.length) ++ (int32 (.ofNat 32 table.records.length) ++
      int32 (.ofNat 32 table.abbreviation.length)))))

/-- The sections. -/
def body : List UInt8 :=
  table.trans.flatMap int32 ++ (table.types.flatMap (fun idx => [idx]) ++
    (table.records.flatMap Record.encode ++ table.abbreviation))

/-- What comes after the magic. -/
def encodeTables : List UInt8 :=
  [table.version] ++ (table.reserved ++ (table.header ++ table.body))

def encode : List UInt8 := TZif ++ table.encodeTables

def localtimes : List Localtime := table.records.map Record.localtime

/-- The transition at `gmttime` to the type `idx`. -/
def transition (gmttime : BitVec 32) (idx : UInt8) : Transition :=
  let gmtoff := match table.localtimes[idx.toNat]? with
    | some type => type.gmtOffset
    | none => 0
  ⟨gmttime.toInt, gmttime.toInt + gmtoff, idx.toNat⟩

/-- The data that the table encodes. -/
def data : Data where
  transitions := List.zipWith table.transition table.trans table.types
  localtimes := table.localtimes
  abbreviation := table.abbreviation

end Table

/-- **No table is read.** -/
theorem table_never_read (table : Table) :
    ¬ ∃ result, readTimeZoneFile host (some table.encode) {} = some (result, table.data) := by
  rintro ⟨result, read⟩
  rw [readTimeZoneFile_eq] at read
  have empty : table.localtimes = [] :=
    (congrArg (fun p => p.2.localtimes) (Option.some.inj read)).symm
  have length := table.records_pos
  rw [List.map_eq_nil_iff.mp empty] at length
  exact absurd length (by decide)

/-- The zone that is always on universal time. -/
def utc : Table where
  version := 0
  reserved := List.replicate 15 0
  isgmtcnt := 0
  isstdcnt := 0
  leapcnt := 0
  trans := []
  types := []
  records := [⟨0, 0, 0⟩]
  abbreviation := [85, 84, 67, 0]
  length_reserved := rfl
  length_types := rfl
  types_lt := by simp
  records_pos := by decide
  trans_lt := by decide
  records_lt := by decide
  abbreviation_lt := by decide

theorem utc_not_read :
    ¬ ∃ result, readTimeZoneFile .little (some utc.encode) {} = some (result, utc.data) := by
  rintro ⟨result, ⟨⟩⟩

/-! ### Behind the check -/

section Consumes

variable {α β ι : Type} {m : Read α} {f : α → Read β} {bytes bytes' : List UInt8}
  {data data' data'' : Data} {v : α} {w : β}

/-- From a file that goes on with `bytes` the read takes these and returns `v`. -/
def Consumes (m : Read α) (bytes : List UInt8) (data : Data) (v : α) (data' : Data) : Prop :=
  ∀ rest, Returns m ⟨bytes ++ rest, data⟩ v ⟨rest, data'⟩

theorem Consumes.pure (v : α) (data : Data) : Consumes (pure v) [] data v data :=
  fun _ => .pure _ _

theorem Consumes.bind (first : Consumes m bytes data v data')
    (second : Consumes (f v) bytes' data' w data'') :
    Consumes (m >>= f) (bytes ++ bytes') data w data'' := by
  intro rest
  rw [List.append_assoc]
  exact (first _).bind (second rest)

/-- A read that takes nothing more. -/
theorem Consumes.then (first : Consumes m bytes data v data')
    (second : Consumes (f v) [] data' w data'') : Consumes (m >>= f) bytes data w data'' := by
  have both := first.bind second
  rw [List.append_nil] at both
  exact both

/-- A loop that reads one item a round. -/
theorem Consumes.mapM {item : ι → List UInt8} {value : ι → α}
    (each : ∀ x, Consumes m (item x) data (value x) data) (xs : List ι) (rounds : List Nat)
    (length : rounds.length = xs.length) :
    Consumes (rounds.mapM fun _ => m) (xs.flatMap item) data (xs.map value) data := by
  induction xs generalizing rounds with
  | nil =>
      rw [List.eq_nil_of_length_eq_zero length]
      exact .pure _ _
  | cons x xs ih =>
      cases rounds with
      | nil => cases length
      | cons round rounds =>
          rw [List.mapM_cons]
          exact (each x).bind ((ih rounds (Nat.succ.inj length)).then (.pure _ _))

end Consumes

theorem readBytes_consumes (bytes : List UInt8) (data : Data) :
    Consumes (readBytes bytes.length) bytes data bytes data := by
  intro rest
  have returned := readBytes_returns (s := ⟨bytes ++ rest, data⟩) (n := bytes.length) (by simp)
  rw [List.take_left, List.drop_left] at returned
  exact returned

theorem readInt32_consumes (x : BitVec 32) (data : Data) :
    Consumes (readInt32 host) (int32 x) data x.toInt data := by
  intro rest
  have length : (int32 x).length = 4 := ByteOrder.length_bytes _ _
  have taken : (int32 x ++ rest).take 4 = int32 x := List.take_left' length
  have left : (int32 x ++ rest).drop 4 = rest := List.drop_left' length
  have returned := fread_returns 4 ⟨int32 x ++ rest, data⟩
  rw [taken, left] at returned
  refine returned.bind ?_
  rw [if_neg (not_not_intro length), host.betoh_word length]
  have value : ByteOrder.big.word 4 (int32 x) = x := ByteOrder.word_bytes (n := 4) .big x
  rw [value]
  exact .pure _ _

theorem readUInt8_consumes (x : UInt8) (data : Data) :
    Consumes readUInt8 [x] data x data := fun _ => rfl

theorem readLocaltime_consumes (r : Record) (data : Data) :
    Consumes (readLocaltime host) r.encode data ()
      { data with localtimes := data.localtimes ++ [r.localtime] } := by
  unfold Record.encode
  rw [List.append_assoc]
  refine (readInt32_consumes host _ _).bind ((readUInt8_consumes _ _).bind
    ((readUInt8_consumes _ _).then ?_))
  exact fun rest => rfl

theorem readLocaltimes_consumes (records : List Record) (rounds : List Nat)
    (length : rounds.length = records.length) (data : Data) :
    Consumes (rounds.forM fun _ => readLocaltime host) (records.flatMap Record.encode) data ()
      { data with localtimes := data.localtimes ++ records.map Record.localtime } := by
  induction records generalizing rounds data with
  | nil =>
      rw [List.eq_nil_of_length_eq_zero length, List.map_nil, List.append_nil]
      exact .pure _ _
  | cons r records ih =>
      cases rounds with
      | nil => cases length
      | cons round rounds =>
          have rest := ih rounds (Nat.succ.inj length)
            { data with localtimes := data.localtimes ++ [r.localtime] }
          rw [List.append_assoc] at rest
          exact (readLocaltime_consumes host r data).bind rest

namespace Table

variable (table : Table)

/-- One round appends the transition of its index. -/
theorem pushTransition_returns {i : Nat} {time : BitVec 32} {idx : UInt8}
    (at_time : table.trans[i]? = some time) (at_idx : table.types[i]? = some idx) (s : Reader)
    (localtimes : s.data.localtimes = table.localtimes) :
    Returns (pushTransition (table.trans.map BitVec.toInt) table.types i) s ()
      { s with data.transitions := s.data.transitions ++ [table.transition time idx] } := by
  have inside : idx.toNat < table.localtimes.length := by
    rw [Table.localtimes, List.length_map]
    exact table.types_lt _ (List.mem_of_getElem? at_idx)
  have type := List.getElem?_eq_getElem inside
  have pushed : table.transition time idx =
      ⟨time.toInt, time.toInt + table.localtimes[idx.toNat].gmtOffset, idx.toNat⟩ := by
    rw [transition, type]
  unfold pushTransition
  refine Returns.bind (v := s) (t := s) rfl ?_
  rw [List.getElem?_map, at_time, at_idx, localtimes, Option.map_some]
  dsimp only
  rw [type, pushed]
  rfl

/-- The rounds up to `count` append the transitions up to there. -/
theorem pushTransitions_returns (count : Nat) (bound : count ≤ table.trans.length) (s : Reader)
    (localtimes : s.data.localtimes = table.localtimes) :
    Returns ((List.range count).forM
        (pushTransition (table.trans.map BitVec.toInt) table.types)) s ()
      { s with data.transitions := s.data.transitions ++
          (List.zipWith table.transition table.trans table.types).take count } := by
  induction count with
  | zero =>
      rw [List.take_zero, List.append_nil]
      exact .pure _ _
  | succ count ih =>
      have in_trans : count < table.trans.length := bound
      have in_types : count < table.types.length := by
        rw [table.length_types]
        exact bound
      have at_time := List.getElem?_eq_getElem in_trans
      have at_idx := List.getElem?_eq_getElem in_types
      have next : (List.zipWith table.transition table.trans table.types)[count]? =
          some (table.transition table.trans[count] table.types[count]) := by
        rw [List.getElem?_zipWith, at_time, at_idx]
      rw [List.range_succ, List.forM_eq_forM, List.forM_append, List.take_add_one, next,
        ← List.append_assoc]
      refine (ih (Nat.le_of_succ_le bound)).bind ?_
      rw [List.forM_cons, List.forM_nil]
      apply Returns.bind
      · exact table.pushTransition_returns at_time at_idx _ localtimes
      · exact .pure _ _

end Table

/-- A count that is an `int32_t` is read as it is. -/
theorem toInt_count {n : Nat} (small : n < 2147483648) : (BitVec.ofNat 32 n).toInt = n := by
  rw [BitVec.toInt_eq_toNat_cond, BitVec.toNat_ofNat]
  have whole : n % 2 ^ 32 = n := Nat.mod_eq_of_lt (by omega)
  rw [whole, if_pos (by omega)]

theorem readCount_consumes {n : Nat} (small : n < 2147483648) (data : Data) :
    Consumes (readInt32 host) (int32 (.ofNat 32 n)) data n data := by
  have read := readInt32_consumes host (.ofNat 32 n) data
  rw [toInt_count small] at read
  exact read

/-- **What the statements behind the check do.** They undo the encoding of every table. -/
theorem readTables_encode (table : Table) :
    Consumes (readTables host) table.encodeTables {} () table.data := by
  have length (n : Nat) : (rounds n).length = n := List.length_range
  have version : Consumes (readBytes 1) [table.version] {} [table.version] {} :=
    readBytes_consumes [table.version] {}
  have reserved : Consumes (readBytes 15) table.reserved {} table.reserved {} := by
    have read := readBytes_consumes table.reserved {}
    rw [table.length_reserved] at read
    exact read
  unfold Table.encodeTables Table.header Table.body
  simp only [List.append_assoc]
  refine version.bind (reserved.bind ((readInt32_consumes host _ _).bind
    ((readInt32_consumes host _ _).bind ((readInt32_consumes host _ _).bind
    ((readCount_consumes host table.trans_lt _).bind
    ((readCount_consumes host table.records_lt _).bind
    ((readCount_consumes host table.abbreviation_lt _).bind ?_)))))))
  dsimp only
  rw [if_neg (Int.not_lt.mpr (Int.natCast_nonneg _))]
  have trans := Consumes.mapM (fun x => readInt32_consumes host x {}) table.trans
    (rounds table.trans.length) (length _)
  have types := Consumes.mapM (fun x => readUInt8_consumes x {}) table.types
    (rounds table.trans.length) ((length _).trans table.length_types.symm)
  have localtimes := readLocaltimes_consumes host table.records (rounds table.records.length)
    (length _) {}
  rw [List.map_id'] at types
  refine trans.bind (types.bind (localtimes.bind ?_))
  have pushed (rest : List UInt8) := table.pushTransitions_returns table.trans.length
    (Nat.le_refl _) ⟨table.abbreviation ++ rest, { localtimes := table.localtimes }⟩ rfl
  intro rest
  refine (pushed rest).bind ?_
  dsimp only
  have whole : (List.zipWith table.transition table.trans table.types).take table.trans.length =
      List.zipWith table.transition table.trans table.types := by
    refine List.take_of_length_le ?_
    rw [List.length_zipWith]
    exact Nat.min_le_left _ _
  rw [whole]
  apply Returns.bind
  · exact readBytes_consumes table.abbreviation _ rest
  · rfl

end Dbdky.TimeZone

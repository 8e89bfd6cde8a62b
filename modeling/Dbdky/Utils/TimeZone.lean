import Dbdky.Gregorian.Calendar
import Dbdky.Memory.ByteOrder
import Dbdky.Ordered.LowerBound

/-!
`TimeZone` (`src/utils/TimeZone.{h,cpp}`): local time from a zone file.

A read consumes the file and fills `Data`; it stops with the `logic_error` that is thrown
or where the behaviour is undefined. What has been filled in by then stays. A `const char*`
into `abbreviation` is the string that begins there, and seconds do not overflow.
-/

namespace Dbdky

open Memory

namespace TimeZone

/-! ### The data -/

structure Transition where
  gmttime : Int
  localtime : Int
  localtimeIdx : Nat
deriving DecidableEq, Repr

structure Comp where
  compareGmt : Bool

namespace Comp

/-- `operator()` -/
def less (comp : Comp) (lhs rhs : Transition) : Bool :=
  if comp.compareGmt then decide (lhs.gmttime < rhs.gmttime)
  else decide (lhs.localtime < rhs.localtime)

def equal (comp : Comp) (lhs rhs : Transition) : Bool :=
  if comp.compareGmt then decide (lhs.gmttime = rhs.gmttime)
  else decide (lhs.localtime = rhs.localtime)

/-- What is compared. -/
def key (comp : Comp) (t : Transition) : Int :=
  if comp.compareGmt then t.gmttime else t.localtime

theorem less_iff {comp : Comp} {lhs rhs : Transition} :
    comp.less lhs rhs = true ↔ comp.key lhs < comp.key rhs := by
  unfold less key
  split <;> exact decide_eq_true_iff

theorem equal_iff {comp : Comp} {lhs rhs : Transition} :
    comp.equal lhs rhs = true ↔ comp.key lhs = comp.key rhs := by
  unfold equal key
  split <;> exact decide_eq_true_iff

end Comp

structure Localtime where
  gmtOffset : Int
  isDst : Bool
  arrbIdx : Nat
deriving DecidableEq, Repr

structure Data where
  transitions : List Transition := []
  localtimes : List Localtime := []
  abbreviation : List UInt8 := []
deriving DecidableEq, Repr

/-! ### Reading a zone file -/

inductive Stop where
  | logicError (what : String)
  | undefined
deriving DecidableEq, Repr

/-- The bytes of the file that have not been read, and `*data`. -/
structure Reader where
  file : List UInt8
  data : Data

abbrev Read := ExceptT Stop (StateM Reader)

namespace File

def fread (n : Nat) : Read (List UInt8) := do
  let s ← get
  set { s with file := s.file.drop n }
  pure (s.file.take n)

def readBytes (n : Int) : Read (List UInt8) := do
  if n < 0 then throw .undefined
  let buf ← fread n.toNat
  if buf.length ≠ n.toNat then throw (.logicError "no enough data")
  pure buf

variable (host : ByteOrder)

def readInt32 : Read Int := do
  let x ← fread 4
  if x.length ≠ 4 then throw (.logicError "bad int32_t data")
  pure (host.betoh (host.word 4 x)).toInt

def readUInt8 : Read UInt8 := do
  let x ← fread 1
  match x with
  | [x] => pure x
  | _ => throw (.logicError "bad uint8_t data")

end File

open File

/-- The rounds of `for (int i = 0; i < count; i++)`. -/
def rounds (count : Int) : List Nat := List.range count.toNat

section Read

variable (host : ByteOrder)

/-- One round of the loop over the types. -/
def readLocaltime : Read Unit := do
  let gmtoff ← readInt32 host
  let isdst ← readUInt8
  let abbrind ← readUInt8
  let type : Localtime := ⟨gmtoff, isdst ≠ 0, abbrind.toNat⟩
  modify fun s => { s with data.localtimes := s.data.localtimes ++ [type] }

/-- One round of the last loop over the transitions. -/
def pushTransition (trans : List Int) (localtimes : List UInt8) (i : Nat) : Read Unit := do
  let s ← get
  match localtimes[i]?, trans[i]? with
  | some localIdx, some gmttime =>
      match s.data.localtimes[localIdx.toNat]? with
      | some type =>
          let transition : Transition := ⟨gmttime, gmttime + type.gmtOffset, localIdx.toNat⟩
          set { s with data.transitions := s.data.transitions ++ [transition] }
      | none => throw .undefined
  | _, _ => throw .undefined

/-- The `try` block of `readTimeZoneFile` from the version on. The loop over the leap
seconds does nothing. -/
def readTables : Read Unit := do
  let _version ← readBytes 1
  let _ ← readBytes 15
  let _isgmtcnt ← readInt32 host
  let _isstdcnt ← readInt32 host
  let _leapcnt ← readInt32 host
  let timecnt ← readInt32 host
  let typecnt ← readInt32 host
  let charcnt ← readInt32 host
  if timecnt < 0 then throw (.logicError "vector::reserve")
  let trans ← (rounds timecnt).mapM fun _ => readInt32 host
  let localtimes ← (rounds timecnt).mapM fun _ => readUInt8
  (rounds typecnt).forM fun _ => readLocaltime host
  (rounds timecnt).forM (pushTransition trans localtimes)
  let abbreviation ← readBytes charcnt
  modify fun s => { s with data.abbreviation := abbreviation }

/-- `"TZif"` -/
def TZif : List UInt8 := [84, 90, 105, 102]

/-- The `try` block. The `if` guards an empty statement. -/
def tryBlock : Read Unit := do
  let head ← readBytes 4
  if head ≠ TZif then pure ()
  throw (.logicError "bad head")
  readTables host

/-- `readTimeZoneFile`, on the content of the file if it can be opened: what is returned
and left in `*data`. -/
def readTimeZoneFile (zonefile : Option (List UInt8)) (data : Data) : Option (Bool × Data) :=
  match zonefile with
  | none => some (true, data)
  | some bytes =>
      match (tryBlock host).run.run ⟨bytes, data⟩ with
      | (.ok (), s) => some (true, s.data)
      | (.error (.logicError _), s) => some (true, s.data)
      | (.error .undefined, _) => none

end Read

end TimeZone

structure TimeZone where
  data : Option TimeZone.Data

namespace TimeZone

/-- `TimeZone(zonefile)` -/
def new (host : ByteOrder) (zonefile : Option (List UInt8)) : Option TimeZone := do
  let (result, data) ← readTimeZoneFile host zonefile {}
  some (if result then ⟨some data⟩ else ⟨none⟩)

def valid (tz : TimeZone) : Bool := tz.data.isSome

/-! ### Calendar time -/

/-- `struct tm` -/
structure Tm where
  tmSec : Int
  tmMin : Int
  tmHour : Int
  tmMday : Int
  tmMon : Int
  tmYear : Int
  tmWday : Int
  tmYday : Int
  tmIsdst : Int
  tmGmtoff : Int
  tmZone : Option (List UInt8)
deriving DecidableEq, Repr

/-- 1 January 1970 in the numbering of the calendar. -/
def epoch : Int := 719468

/-- `gmtime_r` -/
def gmtimeR (seconds : Int) : Tm :=
  let days := seconds / 86400
  let date := Gregorian.ofDayNumber (days + epoch)
  { tmSec := seconds % 60
    tmMin := seconds / 60 % 60
    tmHour := seconds / 3600 % 24
    tmMday := date.day
    tmMon := date.month - 1
    tmYear := date.year - 1900
    tmWday := (days + 4) % 7
    tmYday := days + epoch - Gregorian.Date.dayNumber ⟨date.year, 1, 1⟩
    tmIsdst := 0
    tmGmtoff := 0
    tmZone := some [71, 77, 84] }

/-- `timegm`: months outside the year are counted on, the other fields are added up. -/
def timegm (tm : Tm) : Int :=
  let month := Gregorian.Date.mk (tm.tmYear + 1900 + tm.tmMon / 12) (tm.tmMon % 12 + 1) 1
  86400 * (month.dayNumber + (tm.tmMday - 1) - epoch) + 3600 * tm.tmHour + 60 * tm.tmMin + tm.tmSec

/-! ### Conversions -/

/-- `findLocaltime`: the type it points to, if the index is in range and the assertion holds. -/
def findLocaltime (data : Data) (sentry : Transition) (comp : Comp) : Option Localtime :=
  match data.transitions with
  | [] => data.localtimes.head?
  | front :: rest =>
      if comp.less sentry front then data.localtimes.head?
      else
        let transI := Ordered.lowerBound (fun t => comp.less t sentry) (front :: rest)
        match (front :: rest)[transI]? with
        | some found =>
            if comp.equal sentry found then data.localtimes[found.localtimeIdx]?
            else
              match transI with
              | 0 => none
              | before + 1 =>
                  (front :: rest)[before]?.bind fun t => data.localtimes[t.localtimeIdx]?
        | none => (front :: rest).getLast?.bind fun t => data.localtimes[t.localtimeIdx]?

/-- `&abbreviation[idx]` -/
def Data.abbreviationAt (data : Data) (idx : Nat) : Option (List UInt8) :=
  if idx ≤ data.abbreviation.length then some ((data.abbreviation.drop idx).takeWhile (· ≠ 0))
  else none

def toLocalTime (tz : TimeZone) (seconds : Int) : Option Tm := do
  let data ← tz.data
  let sentry : Transition := ⟨seconds, 0, 0⟩
  let type ← findLocaltime data sentry ⟨true⟩
  let localSeconds := seconds + type.gmtOffset
  let zone ← data.abbreviationAt type.arrbIdx
  some { gmtimeR localSeconds with
    tmIsdst := if type.isDst then 1 else 0
    tmGmtoff := type.gmtOffset
    tmZone := some zone }

def fromLocalTime (tz : TimeZone) (localTm : Tm) : Option Int := do
  let data ← tz.data
  let seconds := timegm localTm
  let sentry : Transition := ⟨0, seconds, 0⟩
  let type ← findLocaltime data sentry ⟨false⟩
  if localTm.tmIsdst ≠ 0 then
    let tryTm ← tz.toLocalTime (seconds - type.gmtOffset)
    if tryTm.tmIsdst = 0 ∧ tryTm.tmHour = localTm.tmHour ∧ tryTm.tmMin = localTm.tmMin then
      some (seconds - 3600 - type.gmtOffset)
    else some (seconds - type.gmtOffset)
  else some (seconds - type.gmtOffset)

end TimeZone

end Dbdky

import Dbdky.Clock.Offsets
import Dbdky.Utils.TimeZoneFile

/-!
Local time and back.

The transitions of a zone are the changes of a clock, whose times are the `gmttime`s and
whose readings right after them are the `localtime`s. `toLocalTime` looks up the time and
`fromLocalTime` the reading. Where the reading occurs twice and is marked as daylight
saving time, `fromLocalTime` finds the later time and goes back by one hour.

* **`findLocaltime_spec`.** The search finds what is in force, by either key.
* **`findLocaltime_lastReached`.** That is the type of the last transition that has been
  reached, and the first type before there is one.
* **`fromLocalTime_toLocalTime_iff`.** The round trip succeeds but for the times whose
  reading occurs again other than exactly one hour later.
-/

namespace Dbdky.TimeZone

open Clock

/-! ### Calendar time -/

/-- The days of a month are numbered one after the other. -/
theorem dayNumber_first (date : Gregorian.Date) :
    Gregorian.Date.dayNumber ⟨date.year, date.month, 1⟩ + (date.day - 1) = date.dayNumber := by
  have year : Gregorian.Date.marchYear ⟨date.year, date.month, 1⟩ = date.marchYear := rfl
  have month : Gregorian.Date.marchMonth ⟨date.year, date.month, 1⟩ = date.marchMonth := rfl
  rw [Gregorian.Date.dayNumber, Gregorian.Date.dayNumber, year, month]
  dsimp only
  omega

/-- `timegm` undoes `gmtime_r`; it does not look at the fields that the zone sets. -/
theorem timegm_gmtimeR (seconds isdst gmtoff : Int) (zone : Option (List UInt8)) :
    timegm { gmtimeR seconds with tmIsdst := isdst, tmGmtoff := gmtoff, tmZone := zone } =
      seconds := by
  obtain ⟨valid, number⟩ := Gregorian.dayNumber_ofDayNumber (seconds / 86400 + epoch)
  have month_pos := valid.month_pos
  have month_le := valid.month_le
  have year : (Gregorian.ofDayNumber (seconds / 86400 + epoch)).year - 1900 + 1900 +
      ((Gregorian.ofDayNumber (seconds / 86400 + epoch)).month - 1) / 12 =
      (Gregorian.ofDayNumber (seconds / 86400 + epoch)).year := by omega
  have month : ((Gregorian.ofDayNumber (seconds / 86400 + epoch)).month - 1) % 12 + 1 =
      (Gregorian.ofDayNumber (seconds / 86400 + epoch)).month := by omega
  simp only [timegm, gmtimeR, year, month]
  rw [dayNumber_first, number]
  omega

/-! ### The look-up -/

namespace Data

/-- The type that an index refers to. -/
def type (data : Data) (idx : Nat) : Localtime := data.localtimes.getD idx ⟨0, false, 0⟩

/-- What is in force before the first transition. -/
def front (data : Data) : Localtime := data.localtimes.headD ⟨0, false, 0⟩

/-- The transitions by the key that is compared. -/
def changes (data : Data) (comp : Comp) : List (Int × Localtime) :=
  data.transitions.map fun t => (comp.key t, data.type t.localtimeIdx)

variable {data : Data}

theorem Usable.head? (usable : data.Usable) : data.localtimes.head? = some data.front := by
  unfold front
  cases types : data.localtimes with
  | nil => exact absurd types usable.localtimes
  | cons type rest => rfl

theorem abbreviationAt_isSome {idx : Nat} (inside : idx ≤ data.abbreviation.length) :
    ∃ zone, data.abbreviationAt idx = some zone := ⟨_, if_pos inside⟩

theorem Usable.getElem? (usable : data.Usable) {t : Transition} (mem : t ∈ data.transitions) :
    data.localtimes[t.localtimeIdx]? = some (data.type t.localtimeIdx) := by
  have bound := usable.localtimeIdx t mem
  rw [type, List.getD_eq_getElem?_getD, List.getElem?_eq_getElem bound, Option.getD_some]

end Data

section LookUp

variable {data : Data} {comp : Comp} {sentry : Transition}

/-- Before the first transition the first type is found. -/
theorem findLocaltime_early (early : ∀ t ∈ data.transitions, comp.key sentry < comp.key t) :
    findLocaltime data sentry comp = data.localtimes.head? := by
  unfold findLocaltime
  cases transitions : data.transitions with
  | nil => rfl
  | cons front rest =>
      rw [transitions] at early
      exact if_pos (Comp.less_iff.mpr (early front (List.mem_cons_self ..)))

theorem not_less_front {before after rest : List Transition} {t front : Transition}
    (split : before ++ t :: after = front :: rest)
    (earlier : ∀ u ∈ before, comp.key u < comp.key t) (reached : comp.key t ≤ comp.key sentry) :
    ¬ comp.less sentry front = true := by
  rw [Comp.less_iff, Int.not_lt]
  cases before with
  | nil =>
      obtain ⟨rfl, -⟩ := List.cons.inj split
      exact reached
  | cons first before =>
      obtain ⟨rfl, -⟩ := List.cons.inj split
      exact Int.le_of_lt (Int.lt_of_lt_of_le (earlier first (List.mem_cons_self ..)) reached)

/-- The search finds the last transition that has been reached: at its very key, or by a step
back from the one behind it. -/
theorem findLocaltime_reached {before after : List Transition} {t : Transition}
    (transitions : data.transitions = before ++ t :: after)
    (earlier : ∀ u ∈ before, comp.key u < comp.key t) (reached : comp.key t ≤ comp.key sentry)
    (later : ∀ u ∈ after, comp.key sentry < comp.key u) :
    findLocaltime data sentry comp = data.localtimes[t.localtimeIdx]? := by
  have passed : ∀ u ∈ before, comp.less u sentry = true := by
    intro u mem
    exact Comp.less_iff.mpr (Int.lt_of_lt_of_le (earlier u mem) reached)
  have ahead : ∀ u ∈ after, comp.less u sentry = false := by
    intro u mem
    refine Bool.eq_false_iff.mpr (mt Comp.less_iff.mp ?_)
    exact Int.not_lt.mpr (Int.le_of_lt (later u mem))
  unfold findLocaltime
  rw [transitions]
  cases split : before ++ t :: after with
  | nil => simp at split
  | cons front rest =>
      dsimp only
      rw [if_neg (not_less_front split earlier reached), ← split]
      rcases Int.lt_or_eq_of_le reached with behind | same
      · have left : ∀ u ∈ before ++ [t], comp.less u sentry = true := by
          refine List.forall_mem_append.mpr ⟨passed, ?_⟩
          exact List.forall_mem_singleton.mpr (Comp.less_iff.mpr behind)
        have last : (before ++ [t] ++ after)[before.length]? = some t := by simp
        have index := Ordered.lowerBound_append left ahead
        rw [List.length_append, List.length_singleton] at index
        rw [List.append_cons, index]
        cases after with
        | nil =>
            rw [List.append_nil, List.getElem?_eq_none (by simp), List.getLast?_concat]
            rfl
        | cons found after =>
            have above := later found (List.mem_cons_self ..)
            have not_equal : ¬ comp.equal sentry found = true := by
              rw [Comp.equal_iff]
              omega
            have next : (before ++ [t] ++ found :: after)[before.length + 1]? = some found := by
              simp
            rw [next]
            dsimp only
            rw [if_neg not_equal, last]
            rfl
      · have right : ∀ u ∈ t :: after, comp.less u sentry = false := by
          refine List.forall_mem_cons.mpr ⟨?_, ahead⟩
          refine Bool.eq_false_iff.mpr (mt Comp.less_iff.mp ?_)
          omega
        rw [Ordered.lowerBound_append passed right, List.getElem?_append_right (Nat.le_refl _),
          Nat.sub_self, List.getElem?_cons_zero]
        exact if_pos (Comp.equal_iff.mpr same.symm)

/-- The transitions that have been reached, and those that have not. -/
theorem exists_reached {transitions : List Transition} (k : Int)
    (increasing : transitions.Pairwise fun t u => comp.key t < comp.key u) :
    (∀ t ∈ transitions, k < comp.key t) ∨
      ∃ before t after, transitions = before ++ t :: after ∧
        (∀ u ∈ before, comp.key u < comp.key t) ∧ comp.key t ≤ k ∧
        ∀ u ∈ after, k < comp.key u := by
  have sorted : Ordered.Partitioned (fun t => decide (comp.key t ≤ k)) transitions := by
    refine increasing.imp fun before reached => decide_eq_true ?_
    exact Int.le_of_lt (Int.lt_of_lt_of_le before (of_decide_eq_true reached))
  obtain ⟨reached, after, rfl, left, right⟩ := sorted.split
  have later : ∀ u ∈ after, k < comp.key u := by
    intro u mem
    exact Int.not_le.mp (of_decide_eq_false (right u mem))
  rcases List.eq_nil_or_concat' reached with rfl | ⟨before, t, rfl⟩
  · exact .inl later
  · have mem : t ∈ before ++ [t] := List.mem_concat_self
    have ascending := (List.pairwise_append.mp (List.pairwise_append.mp increasing).1).2.2
    refine .inr ⟨before, t, after, List.append_assoc .., ?_, of_decide_eq_true (left t mem), later⟩
    intro u earlier
    exact ascending u earlier t (List.mem_singleton_self t)

theorem findLocaltime_spec (usable : data.Usable) (comp : Comp)
    (increasing : data.transitions.Pairwise fun t u => comp.key t < comp.key u)
    (sentry : Transition) :
    findLocaltime data sentry comp =
      some (inForce data.front (data.changes comp) (comp.key sentry)) := by
  rcases exists_reached (comp.key sentry) increasing with
    early | ⟨before, t, after, transitions, earlier, reached, later⟩
  · rw [findLocaltime_early early, usable.head?, Data.changes,
      inForce_eq_first (List.forall_mem_map.mpr early)]
  · have mem : t ∈ data.transitions := by simp [transitions]
    have before_reached : ∀ u ∈ before, comp.key u ≤ comp.key sentry := by
      intro u mem
      exact Int.le_of_lt (Int.lt_of_lt_of_le (earlier u mem) reached)
    rw [findLocaltime_reached transitions earlier reached later, usable.getElem? mem,
      Data.changes, transitions, List.map_append, List.map_cons,
      inForce_append (List.forall_mem_map.mpr before_reached) reached
        (List.forall_mem_map.mpr later)]

/-- The last transition whose key is not above that of the sentry. -/
def Data.lastReached (data : Data) (comp : Comp) (sentry : Transition) : Option Transition :=
  (data.transitions.filter fun t => decide (comp.key t ≤ comp.key sentry)).getLast?

theorem lastReached_early (early : ∀ t ∈ data.transitions, comp.key sentry < comp.key t) :
    data.lastReached comp sentry = none := by
  rw [Data.lastReached, List.getLast?_eq_none_iff, List.filter_eq_nil_iff]
  intro t mem
  rw [decide_eq_true_iff]
  exact Int.not_le.mpr (early t mem)

theorem lastReached_reached {before after : List Transition} {t : Transition}
    (transitions : data.transitions = before ++ t :: after) (reached : comp.key t ≤ comp.key sentry)
    (later : ∀ u ∈ after, comp.key sentry < comp.key u) :
    data.lastReached comp sentry = some t := by
  have rest : after.filter (fun u => decide (comp.key u ≤ comp.key sentry)) = [] := by
    rw [List.filter_eq_nil_iff]
    intro u mem
    rw [decide_eq_true_iff]
    exact Int.not_le.mpr (later u mem)
  rw [Data.lastReached, transitions, List.filter_append, List.filter_cons,
    if_pos (decide_eq_true reached), rest, List.getLast?_concat]

/-- **The search finds the last transition that has been reached**, and its assertion holds. -/
theorem findLocaltime_lastReached (localtimes : data.localtimes ≠ [])
    (indices : ∀ t ∈ data.transitions, t.localtimeIdx < data.localtimes.length) (comp : Comp)
    (increasing : data.transitions.Pairwise fun t u => comp.key t < comp.key u)
    (sentry : Transition) :
    ∃ type, findLocaltime data sentry comp = some type ∧
      match data.lastReached comp sentry with
      | some t => data.localtimes[t.localtimeIdx]? = some type
      | none => data.localtimes.head? = some type := by
  rcases exists_reached (comp.key sentry) increasing with
    early | ⟨before, t, after, transitions, earlier, reached, later⟩
  · rw [findLocaltime_early early, lastReached_early early]
    have front := List.head?_eq_some_head localtimes
    exact ⟨_, front, front⟩
  · have mem : t ∈ data.transitions := by simp [transitions]
    have found := List.getElem?_eq_getElem (indices t mem)
    rw [findLocaltime_reached transitions earlier reached later,
      lastReached_reached transitions reached later]
    exact ⟨_, found, found⟩

/-- Between two transitions of a zone with three types. -/
theorem findLocaltime_lastReached_between :
    ∃ type, findLocaltime ⟨[⟨10, 20, 1⟩, ⟨30, 40, 2⟩],
        [⟨0, false, 0⟩, ⟨10, true, 0⟩, ⟨5, false, 0⟩], []⟩ ⟨29, 0, 0⟩ ⟨true⟩ = some type ∧
      some (⟨10, true, 0⟩ : Localtime) = some type :=
  findLocaltime_lastReached (by decide) (by decide) ⟨true⟩ (by decide) ⟨29, 0, 0⟩

end LookUp

/-! ### The round trip -/

/-- The times of the transitions, with the types in force from there on. -/
def Data.gmtChanges (data : Data) : List (Int × Localtime) := data.changes ⟨true⟩

/-- The local times of the transitions, with the types in force from there on. -/
def Data.localChanges (data : Data) : List (Int × Localtime) := data.changes ⟨false⟩

/-- Data that can be looked up, with the local times that belong to its transitions, which are
farther apart than their offsets, and set the clock back only from daylight saving time to
standard time. -/
structure Data.Regular (data : Data) : Prop where
  usable : data.Usable
  localtime : ∀ t ∈ data.transitions,
    t.localtime = t.gmttime + (data.type t.localtimeIdx).gmtOffset
  increasing : data.transitions.Pairwise fun t u => t.gmttime < u.gmttime
  regular : Clock.Regular Localtime.gmtOffset Localtime.isDst data.front data.gmtChanges

namespace Data.Regular

variable {data : Data} (regular : data.Regular)
include regular

theorem localChanges_eq : data.localChanges = readings Localtime.gmtOffset data.gmtChanges := by
  rw [readings, gmtChanges, localChanges, changes, changes, List.map_map]
  exact List.map_congr_left fun t mem => Prod.ext (regular.localtime t mem) rfl

theorem localtime_increasing :
    data.transitions.Pairwise fun t u => t.localtime < u.localtime := by
  have increasing := regular.regular.readings_increasing
  rw [← regular.localChanges_eq, localChanges, changes, List.pairwise_map] at increasing
  exact increasing

/-- What is in force is one of the types. -/
theorem inForce_mem (seconds : Int) :
    inForce data.front data.gmtChanges seconds ∈ data.localtimes := by
  have one_of : inForce data.front data.gmtChanges seconds = data.front ∨
      ∃ c ∈ data.gmtChanges, inForce data.front data.gmtChanges seconds = c.2 := Clock.inForce_mem
  rcases one_of with here | ⟨c, mem, here⟩
  · rw [here]
    exact List.mem_of_head? regular.usable.head?
  · obtain ⟨t, transition, rfl⟩ := List.mem_map.mp mem
    rw [here]
    exact List.mem_of_getElem? (regular.usable.getElem? transition)

end Data.Regular

/-- The broken-down time at `seconds` while `type` is in force. -/
def Localtime.tm (type : Localtime) (seconds : Int) (zone : List UInt8) : Tm :=
  { gmtimeR (seconds + type.gmtOffset) with
    tmIsdst := if type.isDst then 1 else 0
    tmGmtoff := type.gmtOffset
    tmZone := some zone }

/-- The reading at `t`, before the clock is set back by `c`, is that of a time one hour later. -/
structure Data.HourLater (data : Data) (c : Change Localtime) (t : Int) : Prop where
  /-- The offset that belongs to the reading is one hour less. -/
  offset : (inForce data.front data.localChanges (t + c.before.gmtOffset)).gmtOffset =
    c.before.gmtOffset - 3600
  standard : (inForce data.front data.gmtChanges (t + 3600)).isDst = false
  /-- One hour later the clock shows the same hour and the same minute. -/
  shown :
    let again := gmtimeR (t + 3600 + (inForce data.front data.gmtChanges (t + 3600)).gmtOffset)
    let reading := gmtimeR (t + c.before.gmtOffset)
    again.tmHour = reading.tmHour ∧ again.tmMin = reading.tmMin

section RoundTrip

variable {tz : TimeZone} {data : Data} (loaded : tz.data = some data) (regular : data.Regular)
include loaded regular

theorem toLocalTime_spec (seconds : Int) :
    ∃ zone, tz.toLocalTime seconds =
      some ((inForce data.front data.gmtChanges seconds).tm seconds zone) := by
  have found : findLocaltime data ⟨seconds, 0, 0⟩ ⟨true⟩ =
      some (inForce data.front data.gmtChanges seconds) :=
    findLocaltime_spec regular.usable ⟨true⟩ regular.increasing _
  have inside := regular.usable.arrbIdx _ (regular.inForce_mem seconds)
  obtain ⟨zone, there⟩ := Data.abbreviationAt_isSome (Nat.le_of_lt inside)
  simp only [toLocalTime, loaded, found, there, Option.bind_eq_bind, Option.bind_some]
  exact ⟨zone, rfl⟩

/-- What `fromLocalTime` makes of a time that has been converted: it finds `there` by the
reading, and `back` at the time that it takes the reading for. -/
theorem fromLocalTime_spec (seconds : Int) (here : Localtime) {there back : Localtime}
    (zone : List UInt8)
    (found : inForce data.front data.localChanges (seconds + here.gmtOffset) = there)
    (again : inForce data.front data.gmtChanges (seconds + here.gmtOffset - there.gmtOffset) =
      back) :
    let tryTm := gmtimeR (seconds + here.gmtOffset - there.gmtOffset + back.gmtOffset)
    let localTm := gmtimeR (seconds + here.gmtOffset)
    tz.fromLocalTime (here.tm seconds zone) =
      some (if here.isDst = true ∧ back.isDst = false ∧ tryTm.tmHour = localTm.tmHour ∧
          tryTm.tmMin = localTm.tmMin
        then seconds + here.gmtOffset - 3600 - there.gmtOffset
        else seconds + here.gmtOffset - there.gmtOffset) := by
  have reading : timegm (here.tm seconds zone) = seconds + here.gmtOffset :=
    timegm_gmtimeR _ _ _ _
  have lookup : findLocaltime data ⟨0, seconds + here.gmtOffset, 0⟩ ⟨false⟩ = some there := by
    rw [findLocaltime_spec regular.usable ⟨false⟩ regular.localtime_increasing]
    exact congrArg some found
  obtain ⟨zone', tried⟩ := toLocalTime_spec loaded regular
    (seconds + here.gmtOffset - there.gmtOffset)
  rw [again] at tried
  simp only [fromLocalTime, loaded, reading, lookup, tried, Option.bind_eq_bind, Option.bind_some]
  cases dst : here.isDst with
  | false => simp [Localtime.tm, dst]
  | true =>
      cases dst' : back.isDst with
      | false =>
          rw [apply_ite some]
          simp [Localtime.tm, dst, dst']
      | true => simp [Localtime.tm, dst, dst']

/-- A reading that does not occur again is converted back. -/
theorem roundTrip_once {t : Int}
    (once : ∀ c ∈ steps data.front data.gmtChanges, ¬ c.Repeats Localtime.gmtOffset t) :
    (tz.toLocalTime t).bind tz.fromLocalTime = some t := by
  obtain ⟨zone, converted⟩ := toLocalTime_spec loaded regular t
  have same : t + (inForce data.front data.gmtChanges t).gmtOffset -
      (inForce data.front data.gmtChanges t).gmtOffset = t := by omega
  have found := inForce_reading regular.regular once
  rw [← regular.localChanges_eq] at found
  have back := fromLocalTime_spec loaded regular t _ zone found (congrArg _ same)
  rw [converted, Option.bind_some, back, if_neg, same]
  rintro ⟨dst, standard, -⟩
  rw [dst] at standard
  cases standard

/-- A reading that occurs again is converted back if it is that of a time one hour later. -/
theorem roundTrip_again_iff {t : Int} {c : Change Localtime}
    (mem : c ∈ steps data.front data.gmtChanges) (again : c.Repeats Localtime.gmtOffset t) :
    (tz.toLocalTime t).bind tz.fromLocalTime = some t ↔ data.HourLater c t := by
  obtain ⟨zone, converted⟩ := toLocalTime_spec loaded regular t
  obtain ⟨here, smaller⟩ := inForce_repeated regular.regular mem again
  rw [← regular.localChanges_eq] at smaller
  have set_back : c.after.gmtOffset < c.before.gmtOffset := by
    obtain ⟨reached, early⟩ := again
    simp only [Change.drop] at reached
    omega
  obtain ⟨dst, -⟩ := regular.regular.marked c mem set_back
  have back := fromLocalTime_spec loaded regular t c.before zone rfl rfl
  rw [converted, here, Option.bind_some, back]
  constructor
  · intro trip
    split at trip
    case isTrue shown =>
      have offset : (inForce data.front data.localChanges (t + c.before.gmtOffset)).gmtOffset =
          c.before.gmtOffset - 3600 := by
        have same := Option.some.inj trip
        omega
      have hour : t + c.before.gmtOffset - (c.before.gmtOffset - 3600) = t + 3600 := by omega
      rw [offset, hour] at shown
      exact ⟨offset, shown.2.1, shown.2.2⟩
    case isFalse =>
      have same := Option.some.inj trip
      omega
  · rintro ⟨offset, standard, shown⟩
    have hour : t + c.before.gmtOffset - (c.before.gmtOffset - 3600) = t + 3600 := by omega
    rw [offset, hour, if_pos ⟨dst, standard, shown⟩, Option.some_inj]
    omega

/-- **The local time round trip.** -/
theorem fromLocalTime_toLocalTime_iff (t : Int) :
    (tz.toLocalTime t).bind tz.fromLocalTime = some t ↔
      ∀ c ∈ steps data.front data.gmtChanges, c.Repeats Localtime.gmtOffset t →
        data.HourLater c t := by
  constructor
  · exact fun trip c mem again => (roundTrip_again_iff loaded regular mem again).mp trip
  · intro hour
    by_cases once : ∀ c ∈ steps data.front data.gmtChanges, ¬ c.Repeats Localtime.gmtOffset t
    · exact roundTrip_once loaded regular once
    · obtain ⟨c, mem, again⟩ : ∃ c ∈ steps data.front data.gmtChanges,
          c.Repeats Localtime.gmtOffset t := by
        simpa using once
      exact (roundTrip_again_iff loaded regular mem again).mpr (hour c mem again)

omit loaded in
/-- Where each transition is farther from the next one than it sets the clock back, that is one hour
later if the clock is set back by one hour. -/
theorem hourLater_iff
    (apart : (steps data.front data.gmtChanges).IsChain fun c d =>
      c.drop Localtime.gmtOffset < d.time - c.time)
    {t : Int} {c : Change Localtime} (mem : c ∈ steps data.front data.gmtChanges)
    (again : c.Repeats Localtime.gmtOffset t) :
    data.HourLater c t ↔ c.drop Localtime.gmtOffset = 3600 := by
  obtain ⟨by_reading, by_time⟩ := inForce_repeated_apart regular.regular apart mem again
  rw [← regular.localChanges_eq] at by_reading
  constructor
  · rintro ⟨offset, -, -⟩
    rw [by_reading] at offset
    rw [Change.drop, offset]
    omega
  · intro hour
    have set_back : c.after.gmtOffset < c.before.gmtOffset := by
      simp only [Change.drop] at hour
      omega
    obtain ⟨-, standard⟩ := regular.regular.marked c mem set_back
    rw [hour] at by_time
    have reading : t + 3600 + c.after.gmtOffset = t + c.before.gmtOffset := by
      simp only [Change.drop] at hour
      omega
    refine ⟨?_, by_time ▸ standard, ?_⟩
    · rw [by_reading]
      simp only [Change.drop] at hour
      omega
    · rw [by_time, reading]
      exact ⟨rfl, rfl⟩

end RoundTrip

/-- A zone that is set back by one hour at the epoch, and forward again half an hour later. -/
def forwardSoon : Data where
  transitions := [⟨0, 0, 1⟩, ⟨1800, 2800, 2⟩]
  localtimes := [⟨3600, true, 0⟩, ⟨0, false, 4⟩, ⟨1000, false, 4⟩]
  abbreviation := [76, 72, 68, 0, 76, 72, 83, 0]

theorem forwardSoon_regular : forwardSoon.Regular where
  usable := ⟨by decide, by decide, by decide⟩
  localtime := by decide
  increasing := by decide
  regular := ⟨List.isChain_cons_cons.mpr ⟨by unfold Separated; decide, List.isChain_singleton _⟩,
    by decide⟩

/-- The reading is taken for one after the second transition. -/
theorem fromLocalTime_toLocalTime_iff_forwardSoon :
    ((⟨some forwardSoon⟩ : TimeZone).toLocalTime (-500)).bind
        (TimeZone.fromLocalTime ⟨some forwardSoon⟩) = some (-500) ↔
      ∀ c ∈ steps forwardSoon.front forwardSoon.gmtChanges,
        c.Repeats Localtime.gmtOffset (-500) → forwardSoon.HourLater c (-500) :=
  fromLocalTime_toLocalTime_iff rfl forwardSoon_regular (-500)

/-- A zone that is set back by half an hour at the epoch. -/
def halfHour : Data where
  transitions := [⟨0, 37800, 1⟩]
  localtimes := [⟨39600, true, 0⟩, ⟨37800, false, 4⟩]
  abbreviation := [76, 72, 68, 0, 76, 72, 83, 0]

theorem halfHour_regular : halfHour.Regular where
  usable := ⟨by decide, by decide, by decide⟩
  localtime := by decide
  increasing := List.pairwise_singleton _ _
  regular := ⟨List.isChain_singleton _, by decide⟩

/-- A minute before the clock is set back, the reading is taken for a time half an hour
earlier. -/
theorem halfHour_not_converted_back : halfHour.Regular ∧
    ((⟨some halfHour⟩ : TimeZone).toLocalTime (-60)).bind
      (TimeZone.fromLocalTime ⟨some halfHour⟩) ≠ some (-60) := by
  refine ⟨halfHour_regular, ?_⟩
  decide

end Dbdky.TimeZone

import Dbdky.Port.TimerQueue

/-!
Which timers `getExpired` takes.

The batch ends before the lower bound of `sentry`, whose address is to be greater than that
of every timer. Written as `UINT32_MAX` it is smaller than most addresses of 64 bits.

* **`getExpired_splits_iff`.** The timers are split at `now`, and the assertion holds, if and
  only if no timer that expires exactly then lies at such an address.
-/

namespace Dbdky.Port.TimerQueue

/-- `getExpired(now)` returns the entries that are due, in order, and leaves the others. -/
def Splits (s : State) (now : Int) : Prop :=
  ∃ expired t, getExpired s now = .ok (expired, t) ∧
    expired.Pairwise (· < ·) ∧
    (∀ e, e ∈ expired ↔ e ∈ s.timers ∧ e.expiration ≤ now) ∧
    ∀ e, e ∈ t.timers ↔ e ∈ s.timers ∧ now < e.expiration

variable {s : State} {now : Int}

theorem lt_sentry_iff {e : Entry} {addr : Addr} :
    e < toLex (now, addr) ↔ e.expiration < now ∨ e.expiration = now ∧ e.timer < addr :=
  Prod.Lex.lt_iff

/-- Only entries that are due come before `sentry`. -/
theorem due_of_lt_sentry {e : Entry} {addr : Addr} (before : e < toLex (now, addr)) :
    e.expiration ≤ now := by
  rcases lt_sentry_iff.mp before with less | ⟨same, -⟩
  · exact less.le
  · exact same.le

/-- The assertion fails at an entry that is due and does not come before `sentry`. -/
theorem getExpired_abort {e : Entry} (mem : e ∈ s.timers) (due : e.expiration ≤ now)
    (late : toLex (now, uint32Max) ≤ e) : getExpired s now = .error .abort := by
  obtain ⟨first, least, le⟩ := OrderedSet.exists_first? (OrderedSet.mem_notBelow.mpr ⟨mem, late⟩)
  refine if_neg fun later => ?_
  have first_due : first.expiration ≤ e.expiration := Prod.Lex.monotone_fst_ofLex le
  exact absurd (later first least) (not_lt.mpr (first_due.trans due))

/-- What `getExpired` does where the assertion holds. -/
theorem getExpired_ok (alive : ∀ e ∈ s.timers, s.heap e.timer ≠ none)
    (later : ∀ first ∈ (s.timers.notBelow (toLex (now, uint32Max))).first?,
      now < first.expiration) :
    ∃ activeTimers, getExpired s now = .ok (s.timers.below (toLex (now, uint32Max)),
      { s with timers := s.timers.notBelow (toLex (now, uint32Max)), activeTimers }) := by
  obtain ⟨activeTimers, erased⟩ := eraseActive_ok s.activeTimers
    fun e mem => alive e (OrderedSet.mem_below.mp mem).1
  refine ⟨activeTimers, (if_pos later).trans ?_⟩
  exact bind_eq_ok_iff.mpr ⟨activeTimers, erased, rfl⟩

/-- **The split.** -/
theorem getExpired_splits_iff (alive : ∀ e ∈ s.timers, s.heap e.timer ≠ none) :
    Splits s now ↔ ∀ e ∈ s.timers, e.expiration = now → e.timer < uint32Max := by
  constructor
  · rintro ⟨expired, t, got, -⟩ e mem same
    by_contra far
    have late : toLex (now, uint32Max) ≤ e := by
      refine not_lt.mp fun before => far ?_
      rcases lt_sentry_iff.mp before with less | ⟨-, near⟩
      · exact absurd same less.ne
      · exact near
    rw [getExpired_abort mem same.le late] at got
    cases got
  · intro near
    have before_iff : ∀ e ∈ s.timers, e < toLex (now, uint32Max) ↔ e.expiration ≤ now := by
      intro e mem
      constructor
      · exact due_of_lt_sentry
      · intro due
        rcases due.lt_or_eq with less | same
        · exact lt_sentry_iff.mpr (.inl less)
        · exact lt_sentry_iff.mpr (.inr ⟨same, near e mem same⟩)
    have late_iff : ∀ e ∈ s.timers, toLex (now, uint32Max) ≤ e ↔ now < e.expiration := by
      intro e mem
      rw [← not_lt, before_iff e mem, not_le]
    have later : ∀ first ∈ (s.timers.notBelow (toLex (now, uint32Max))).first?,
        now < first.expiration := by
      intro first least
      obtain ⟨mem, late⟩ := OrderedSet.mem_notBelow.mp (OrderedSet.first?_mem least)
      exact (late_iff first mem).mp late
    obtain ⟨activeTimers, got⟩ := getExpired_ok alive later
    refine ⟨_, _, got, s.timers.below_sorted _, ?_, ?_⟩
    · intro e
      rw [OrderedSet.mem_below, and_congr_right_iff]
      exact before_iff e
    · intro e
      rw [OrderedSet.mem_notBelow, and_congr_right_iff]
      exact late_iff e

/-- The interval of a timer that does not repeat. -/
def oneShot : Interval := ⟨false, 0, fun repeats => absurd repeats Bool.false_ne_true⟩

/-- The timer in `timers_`, and nothing else. -/
def oneTimer (timer : Timer) (addr : Addr) : State :=
  { State.new 1 with
    heap := Function.update (fun _ => none) addr (some timer)
    timers := OrderedSet.empty.insert (entry timer addr) }

theorem oneTimer_alive (timer : Timer) (addr : Addr) :
    ∀ e ∈ (oneTimer timer addr).timers, (oneTimer timer addr).heap e.timer ≠ none := by
  intro e mem
  rcases OrderedSet.mem_insert.mp mem with rfl | none
  · simp [oneTimer]
  · exact absurd none (OrderedSet.not_mem_empty e)

theorem getExpired_splits_iff_low : Splits (oneTimer ⟨5, oneShot, 1⟩ 4096) 5 := by
  refine (getExpired_splits_iff (oneTimer_alive _ _)).mpr ?_
  decide

/-- The timer expires at `now`, at the first address of more than 32 bits. -/
theorem getExpired_aborts_high :
    ∃ s now, (∀ e ∈ s.timers, s.heap e.timer ≠ none ∧ e.timer < 2 ^ 64) ∧
      (s.timers.toList.map Entry.timer).Nodup ∧ getExpired s now = .error .abort ∧
      ¬ Splits s now := by
  have aborts : getExpired (oneTimer ⟨5, oneShot, 1⟩ (2 ^ 32)) 5 = .error .abort :=
    getExpired_abort (OrderedSet.mem_insert.mpr (.inl rfl)) le_rfl (by decide)
  refine ⟨_, 5, ?_, by decide, aborts, ?_⟩
  · intro e mem
    refine ⟨oneTimer_alive _ _ e mem, ?_⟩
    rcases OrderedSet.mem_insert.mp mem with rfl | none
    · decide
    · exact absurd none (OrderedSet.not_mem_empty e)
  · rintro ⟨expired, t, got, -⟩
    rw [aborts] at got
    cases got

end Dbdky.Port.TimerQueue

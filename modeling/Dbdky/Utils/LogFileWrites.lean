import Dbdky.Utils.LogFile

/-!
What `File::append` passes to `fwrite_unlocked`.

`remain` is not changed in the loop, so after a first write that falls short the loop asks
for the same number of bytes again and again, each time from further on, until a write
accepts nothing.

* **`append_map_writes`.** `appendWrites` lists the calls that `File::append` makes, also
  when it has not returned.
* **`writesExactly_iff`.** The line is written exactly if and only if the first write accepts
  all of it, or the second one nothing.
-/

namespace Dbdky.LogFile

/-! ### The calls -/

/-- The calls that the loop of `append` makes while it gets these results, and whether it has
ended by then. -/
def retryWrites (remain n : Nat) : List Nat → List Write × Bool
  | [] => ([], remain = 0)
  | x :: results =>
      if remain > 0 then
        if x = 0 then ([⟨n, remain, x⟩], true)
        else
          let (writes, ended) := retryWrites remain (n + x) results
          (⟨n, remain, x⟩ :: writes, ended)
      else ([], true)

/-- The calls that `append` makes, and whether it has returned. -/
def appendWrites (len : Nat) : List Nat → List Write × Bool
  | [] => ([], false)
  | n :: results =>
      let (writes, ended) := retryWrites (len - n) n results
      (⟨0, len, n⟩ :: writes, ended)

/-- Every result is at most what has been asked for. -/
def Bounded (writes : List Write) : Prop := ∀ w ∈ writes, w.accepted ≤ w.count

instance (writes : List Write) : Decidable (Bounded writes) :=
  inferInstanceAs (Decidable (∀ w ∈ writes, _))

variable {f : File} {len remain n : Nat} {results : List Nat} {writes : List Write}

theorem retryWrites_zero (n : Nat) (results : List Nat) : retryWrites 0 n results = ([], true) := by
  cases results <;> rfl

theorem retryWrites_stop (some_left : 0 < remain) :
    retryWrites remain n (0 :: results) = ([⟨n, remain, 0⟩], true) := by
  rw [retryWrites, if_pos some_left, if_pos rfl]

theorem retryWrites_more {x : Nat} (some_left : 0 < remain) (more : x ≠ 0) :
    retryWrites remain n (x :: results) =
      (⟨n, remain, x⟩ :: (retryWrites remain (n + x) results).1,
        (retryWrites remain (n + x) results).2) := by
  rw [retryWrites, if_pos some_left, if_neg more]

/-- The loop returns if it ends with the last result and every result is possible. -/
theorem retry_map_writes :
    (f.retry len remain n results).map File.writes =
      if (retryWrites remain n results).2 = true ∧
          (retryWrites remain n results).1.length = results.length ∧
          Bounded (retryWrites remain n results).1
      then some (f.writes ++ (retryWrites remain n results).1) else none := by
  induction results generalizing f n with
  | nil =>
      rw [File.retry, retryWrites]
      by_cases some_left : remain > 0
      · simp [some_left, Nat.ne_of_gt some_left]
      · simp [Nat.eq_zero_of_not_pos some_left, Bounded]
  | cons x results ih =>
      rw [File.retry]
      by_cases some_left : remain > 0
      · rw [if_pos some_left]
        by_cases stop : x = 0
        · subst stop
          rw [retryWrites_stop some_left]
          cases results with
          | nil => simp [File.write, Bounded]
          | cons y results => simp [File.write]
        · rw [retryWrites_more some_left stop]
          by_cases possible : x ≤ remain
          · simp only [File.write, possible, if_true, if_neg stop, Option.bind_eq_bind,
              Option.bind_some, ih, List.length_cons, Nat.add_right_cancel_iff, Bounded,
              List.forall_mem_cons, true_and, List.append_assoc, List.singleton_append]
          · simp [File.write, possible, Bounded]
      · rw [if_neg some_left, Nat.eq_zero_of_not_pos some_left, retryWrites_zero]
        simp

/-- `File.append` returns if the loop ends with the last result and every result is possible;
what it has passed to `fwrite_unlocked` is then what `appendWrites` lists. -/
theorem append_map_writes :
    (f.append len results).map File.writes =
      if (appendWrites len results).2 = true ∧
          (appendWrites len results).1.length = results.length ∧
          Bounded (appendWrites len results).1
      then some (f.writes ++ (appendWrites len results).1) else none := by
  cases results with
  | nil => rfl
  | cons n results =>
      rw [File.append, appendWrites]
      by_cases possible : n ≤ len
      · simp only [File.write, possible, if_true, Option.bind_eq_bind, Option.bind_some,
          retry_map_writes, List.length_cons, Nat.add_right_cancel_iff, Bounded,
          List.forall_mem_cons, true_and, List.append_assoc, List.singleton_append]
      · simp [File.write, possible, Bounded]

/-! ### Writing the line exactly -/

/-- The first `k` results. -/
def first (results : Nat → Nat) : Nat → List Nat
  | 0 => []
  | k + 1 => results 0 :: first (fun i => results (i + 1)) k

/-- The results are ones that `fwrite_unlocked` can give. -/
def Possible (len : Nat) (results : Nat → Nat) : Prop :=
  ∀ k, Bounded (appendWrites len (first results k)).1

/-- The positions in the line of the bytes that have been accepted, in order. -/
def stream (writes : List Write) : List Nat :=
  writes.flatMap fun w => List.range' w.offset w.accepted

structure WritesExactly (len : Nat) (results : Nat → Nat) : Prop where
  terminates : (∀ k, results k ≠ 0) → ∃ k, (appendWrites len (first results k)).2 = true
  inside : ∀ k, ∀ w ∈ (appendWrites len (first results k)).1, w.offset + w.count ≤ len
  accepted : ∀ k, (appendWrites len (first results k)).2 = true →
    stream (appendWrites len (first results k)).1 = List.range len ∨
      (∃ w ∈ (appendWrites len (first results k)).1, w.accepted = 0) ∧
        stream (appendWrites len (first results k)).1 <+: List.range len

section Results

variable {results : Nat → Nat} {k : Nat}

/-- The loop does not end while its writes accept something. -/
theorem retryWrites_goes_on {results : List Nat} (some_left : 0 < remain)
    (more : ∀ x ∈ results, x ≠ 0) : (retryWrites remain n results).2 = false := by
  induction results generalizing n with
  | nil => exact decide_eq_false (Nat.ne_of_gt some_left)
  | cons x results ih =>
      obtain ⟨head, more⟩ := List.forall_mem_cons.mp more
      rw [retryWrites_more some_left head]
      exact ih more

/-- The first write accepts the whole line. -/
theorem appendWrites_all (all : results 0 = len) :
    appendWrites len (first results (k + 1)) = ([⟨0, len, len⟩], true) := by
  rw [first, appendWrites, all, Nat.sub_self, retryWrites_zero]

/-- The first write falls short, and the second accepts nothing. -/
theorem appendWrites_stop (short : results 0 < len) (stop : results 1 = 0) :
    appendWrites len (first results (k + 2)) =
      ([⟨0, len, results 0⟩, ⟨results 0, len - results 0, 0⟩], true) := by
  rw [first, first, appendWrites, Nat.zero_add, stop, retryWrites_stop (Nat.sub_pos_of_lt short)]

theorem appendWrites_one (short : results 0 < len) :
    appendWrites len (first results 1) = ([⟨0, len, results 0⟩], false) := by
  have some_left : len - results 0 ≠ 0 := Nat.sub_ne_zero_of_lt short
  rw [first, first, appendWrites, retryWrites, decide_eq_false some_left]

/-- The third write begins behind where the second one began, and asks for as much. -/
theorem appendWrites_third (short : results 0 < len) (more : results 1 ≠ 0) :
    ⟨results 0 + results 1, len - results 0, results 2⟩ ∈
      (appendWrites len (first results 3)).1 := by
  have some_left := Nat.sub_pos_of_lt short
  rw [first, first, first, appendWrites, Nat.zero_add, retryWrites_more some_left more]
  refine List.mem_cons_of_mem _ (List.mem_cons_of_mem _ ?_)
  by_cases stop : results 2 = 0
  · rw [stop, retryWrites_stop some_left]
    exact List.mem_singleton_self _
  · rw [retryWrites_more some_left stop]
    exact List.mem_cons_self ..

theorem Possible.first_le (possible : Possible len results) : results 0 ≤ len :=
  possible 1 ⟨0, len, results 0⟩ (List.mem_cons_self ..)

theorem not_inside (possible : Possible len results) (short : results 0 ≠ len)
    (more : results 1 ≠ 0) : ¬ WritesExactly len results := by
  have short : results 0 < len := Nat.lt_of_le_of_ne possible.first_le short
  intro written
  have inside := written.inside 3 _ (appendWrites_third short more)
  dsimp only at inside
  omega

theorem writesExactly_all (all : results 0 = len) : WritesExactly len results := by
  constructor
  · intro _
    exact ⟨1, by rw [appendWrites_all all]⟩
  · intro k w mem
    cases k with
    | zero => cases mem
    | succ k =>
        rw [appendWrites_all all] at mem
        cases List.mem_singleton.mp mem
        exact Nat.le_of_eq (Nat.zero_add len)
  · intro k returned
    cases k with
    | zero => cases returned
    | succ k =>
        rw [appendWrites_all all]
        exact .inl (by simp [stream, List.range_eq_range'])

theorem writesExactly_stop (short : results 0 < len) (stop : results 1 = 0) :
    WritesExactly len results := by
  constructor
  · intro nonzero
    exact absurd stop (nonzero 1)
  · intro k w mem
    cases k with
    | zero => cases mem
    | succ k =>
        cases k with
        | zero =>
            rw [appendWrites_one short] at mem
            cases List.mem_singleton.mp mem
            exact Nat.le_of_eq (Nat.zero_add len)
        | succ k =>
            rw [appendWrites_stop short stop] at mem
            simp only [List.mem_cons, List.not_mem_nil, or_false] at mem
            rcases mem with rfl | rfl
            · exact Nat.le_of_eq (Nat.zero_add len)
            · exact Nat.le_of_eq (Nat.add_sub_of_le (Nat.le_of_lt short))
  · intro k returned
    cases k with
    | zero => cases returned
    | succ k =>
        cases k with
        | zero =>
            rw [appendWrites_one short] at returned
            cases returned
        | succ k =>
            rw [appendWrites_stop short stop]
            refine .inr ⟨⟨_, List.mem_cons_of_mem _ (List.mem_singleton_self _), rfl⟩, ?_⟩
            have accepted : stream [⟨0, len, results 0⟩, ⟨results 0, len - results 0, 0⟩] =
                List.range' 0 (results 0) := by simp [stream]
            have rest : List.range' 0 (results 0) ++
                List.range' (0 + results 0) (len - results 0) = List.range len := by
              rw [List.range'_append_1, Nat.add_sub_of_le (Nat.le_of_lt short),
                List.range_eq_range']
            exact ⟨_, accepted ▸ rest⟩

/-- **The line is written exactly** if and only if the first write accepts all of it, or the
second one nothing. -/
theorem writesExactly_iff (possible : Possible len results) :
    WritesExactly len results ↔ results 0 = len ∨ results 1 = 0 := by
  constructor
  · intro written
    by_contra neither
    obtain ⟨short, more⟩ := not_or.mp neither
    exact not_inside possible short more written
  · intro condition
    by_cases all : results 0 = len
    · exact writesExactly_all all
    · have short : results 0 < len := Nat.lt_of_le_of_ne possible.first_le all
      exact writesExactly_stop short (condition.resolve_left all)

theorem forall_mem_first {p : Nat → Prop} (all : ∀ i, p (results i)) (k : Nat) :
    ∀ x ∈ first results k, p x := by
  induction k generalizing results with
  | zero => exact fun _ none => absurd none List.not_mem_nil
  | succ k ih => exact List.forall_mem_cons.mpr ⟨all 0, ih fun i => all (i + 1)⟩

theorem retryWrites_bounded {results : List Nat} (le : ∀ x ∈ results, x ≤ remain) :
    Bounded (retryWrites remain n results).1 := by
  induction results generalizing n with
  | nil => exact fun _ none => absurd none List.not_mem_nil
  | cons x results ih =>
      obtain ⟨head, le⟩ := List.forall_mem_cons.mp le
      by_cases some_left : 0 < remain
      · by_cases stop : x = 0
        · rw [stop, retryWrites_stop some_left]
          exact List.forall_mem_singleton.mpr (Nat.zero_le remain)
        · rw [retryWrites_more some_left stop]
          exact List.forall_mem_cons.mpr ⟨head, ih le⟩
      · rw [Nat.eq_zero_of_not_pos some_left, retryWrites_zero]
        exact fun _ none => absurd none List.not_mem_nil

/-- Results that are never more than the first write leaves. -/
theorem possible_of_le (first_le : results 0 ≤ len)
    (rest_le : ∀ k, results (k + 1) ≤ len - results 0) : Possible len results := by
  intro k
  cases k with
  | zero => exact fun _ none => absurd none List.not_mem_nil
  | succ k =>
      refine List.forall_mem_cons.mpr ⟨first_le, retryWrites_bounded ?_⟩
      exact forall_mem_first rest_le k

/-- A line of 4 bytes, of which only 3 get written. -/
theorem writesExactly_iff_disk_full :
    WritesExactly 4 (fun k => if k = 0 then 3 else 0) ↔ 3 = 4 ∨ 0 = 0 :=
  writesExactly_iff (possible_of_le (by decide) fun _ => Nat.zero_le 1)

/-- Two bytes at a time: the third write begins at the end of the line, and there is no last
one. -/
theorem two_at_a_time : ∃ len results, Possible len results ∧ (∀ k, results k ≠ 0) ∧
    (∀ k, (appendWrites len (first results k)).2 = false) ∧
    (∃ k, ⟨4, 2, 2⟩ ∈ (appendWrites len (first results k)).1) ∧ ¬ WritesExactly len results := by
  let results : Nat → Nat := fun _ => 2
  have nonzero : ∀ k, results k ≠ 0 := fun _ => Nat.succ_ne_zero 1
  have possible : Possible 4 results := possible_of_le (by decide) fun _ => Nat.le_refl 2
  refine ⟨4, results, possible, nonzero, ?_, ⟨3, by decide⟩, ?_⟩
  · intro k
    cases k with
    | zero => rfl
    | succ k =>
        exact retryWrites_goes_on Nat.two_pos
          (forall_mem_first (p := (· ≠ 0)) (fun i => nonzero (i + 1)) k)
  · exact not_inside possible (by decide) (by decide)

end Results

end Dbdky.LogFile

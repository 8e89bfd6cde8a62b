import Dbdky.BussinessLogic.ComServer
import Dbdky.Port.EPollPoller
import Dbdky.Port.PollPoller

/-!
Channels of destroyed entities.

`comEstablished` registers the channel of a `ComEntity` with the poller of its loop, and
nothing ever unregisters it: `comDestroyed` is empty. So a channel outlives its entity as
soon as `~ComServer` has an entity to destroy.

* **`no_channel_dangles`.** As long as the server is destroyed only while it has no
  entities, every channel a poller knows belongs to an entity that some pointer owns.
* **`dangles_after_destruction`.** Destroying a server that has an entity leads, in some
  run of the loops, to a channel whose entity is gone.
-/

namespace Dbdky.ComServer

open Transition
open Port (Fd Channel Poller)

variable {σ : Type} {P : Poller σ} {Known : σ → Prop}

/-! ### What is claimed, and when -/

/-- Every channel the poller of a loop knows is that of an entity which is not destroyed. -/
def NoDangling (P : Poller σ) (s : State σ) : Prop :=
  ∀ l loop fd, s.loops[l]? = some loop → P.knows loop.watch.poller fd = true →
    ∃ com, s.entities[com]? = some ⟨l, fd⟩ ∧ s.Held com

/-- The server is destroyed while it has no entities. -/
def DestroyedEmpty (s : State σ) (l : Label) : Prop := l = .destroy → s.comEntities = []

instance (s : State σ) (l : Label) : Decidable (DestroyedEmpty s l) :=
  inferInstanceAs (Decidable (_ → _))

/-! ### The invariant -/

/-- The functors that are still to be called. -/
def Loop.uncalled (loop : Loop σ) : List Functor :=
  match loop.phase with
  | .calling _ functors => functors ++ loop.pendingFunctors
  | _ => loop.pendingFunctors

/-- The entities that are still to be established. -/
def Loop.unestablished (loop : Loop σ) : List Nat :=
  loop.uncalled.filterMap fun
    | .comEstablished com => some com
    | .comDestroyed _ => none

/-- What holds of loop `l`. `Known` is what its poller keeps of itself. -/
structure LoopInv (P : Poller σ) (Known : σ → Prop) (entities : List ComEntity) (l : Nat)
    (loop : Loop σ) : Prop where
  poller : Known loop.watch.poller
  fresh : ∀ fd, P.knows loop.watch.poller fd = false → (loop.watch.channels fd).Fresh
  known : ∀ fd, P.knows loop.watch.poller fd = true → ⟨l, fd⟩ ∈ entities
  /-- A loop holds entities of its own only. -/
  own : ∀ com, loop.Holds com → ∃ fd, entities[com]? = some ⟨l, fd⟩
  unknown : ∀ com ∈ loop.unestablished, ∀ fd, entities[com]? = some ⟨l, fd⟩ →
    P.knows loop.watch.poller fd = false
  once : loop.unestablished.Nodup

/-- The channel of `com` has been registered, or it will be, or the loop is gone. -/
def Settled (P : Poller σ) (loop : Loop σ) (com : Nat) (fd : Fd) : Prop :=
  loop.phase = .exited ∨ P.knows loop.watch.poller fd = true ∨ com ∈ loop.unestablished

structure Inv (P : Poller σ) (Known : σ → Prop) (entities : List ComEntity)
    (loops : List (Loop σ)) : Prop where
  distinct : (entities.map ComEntity.fd).Nodup
  loop : ∀ {l loop}, loops[l]? = some loop → LoopInv P Known entities l loop
  settled : ∀ {com entity}, entities[com]? = some entity →
    ∃ loop, loops[entity.loop]? = some loop ∧ Settled P loop com entity.fd

theorem eq_of_same_fd {entities : List ComEntity} {c d : Nat} {x y : ComEntity}
    (distinct : (entities.map ComEntity.fd).Nodup) (at_c : entities[c]? = some x)
    (at_d : entities[d]? = some y) (same : x.fd = y.fd) : c = d := by
  have bound := (List.getElem?_eq_some_iff.mp at_c).1
  refine (List.getElem?_inj (by rwa [List.length_map]) distinct).mp ?_
  rw [List.getElem?_map, List.getElem?_map, at_c, at_d, Option.map_some, Option.map_some, same]

section Loops

variable {entities : List ComEntity} {loops : List (Loop σ)} {loop loop' : Loop σ} {l com : Nat}
  {fd : Fd}

/-- A loop that has called or dropped functors. -/
theorem LoopInv.narrow (inv : LoopInv P Known entities l loop) (watch : loop'.watch = loop.watch)
    (own : ∀ com, loop'.Holds com → ∃ fd, entities[com]? = some ⟨l, fd⟩)
    (fewer : loop'.unestablished.Sublist loop.unestablished) :
    LoopInv P Known entities l loop' := by
  refine ⟨?_, ?_, ?_, own, fun com mem => ?_, fewer.nodup inv.once⟩
  all_goals rw [watch]
  · exact inv.poller
  · exact inv.fresh
  · exact inv.known
  · exact inv.unknown com (fewer.subset mem)

theorem mem_unestablished :
    com ∈ loop.unestablished ↔ .comEstablished com ∈ loop.uncalled := by
  rw [Loop.unestablished, List.mem_filterMap]
  constructor
  · rintro ⟨functor, mem, found⟩
    cases functor with
    | comEstablished c =>
        cases found
        exact mem
    | comDestroyed c => cases found
  · exact fun mem => ⟨_, mem, rfl⟩

theorem uncalled_subset : loop.uncalled ⊆ loop.functors := by
  intro functor mem
  rw [Loop.functors]
  rw [Loop.uncalled] at mem
  split <;> simp_all

theorem holds_of_unestablished (mem : com ∈ loop.unestablished) : loop.Holds com :=
  .inl (List.mem_map_of_mem (f := Functor.com) (uncalled_subset (mem_unestablished.mp mem)))

theorem getElem?_append_of_some {entities : List ComEntity} {x : ComEntity} (entity : ComEntity)
    (at_com : entities[com]? = some x) : (entities ++ [entity])[com]? = some x :=
  (List.getElem?_append_left (List.getElem?_eq_some_iff.mp at_com).1).trans at_com

theorem LoopInv.append (inv : LoopInv P Known entities l loop) (entity : ComEntity) :
    LoopInv P Known (entities ++ [entity]) l loop := by
  refine ⟨inv.poller, inv.fresh, fun fd known => List.mem_append_left _ (inv.known fd known),
    fun com held => ?_, fun com mem fd at_com => ?_, inv.once⟩
  · obtain ⟨fd, at_com⟩ := inv.own com held
    exact ⟨fd, getElem?_append_of_some entity at_com⟩
  · obtain ⟨fd', at_com'⟩ := inv.own com (holds_of_unestablished mem)
    cases (getElem?_append_of_some entity at_com').symm.trans at_com
    exact inv.unknown com mem fd at_com'

/-- The entity that is created next is not yet to be established. -/
theorem LoopInv.length_not_mem (inv : LoopInv P Known entities l loop) :
    entities.length ∉ loop.unestablished := by
  intro mem
  obtain ⟨fd, at_end⟩ := inv.own _ (holds_of_unestablished mem)
  exact Nat.lt_irrefl _ (List.getElem?_eq_some_iff.mp at_end).1

/-! ### Changes of one loop -/

theorem Inv.set (inv : Inv P Known entities loops) (at_l : loops[l]? = some loop)
    (loopInv : LoopInv P Known entities l loop')
    (settled : ∀ com fd, entities[com]? = some ⟨l, fd⟩ → Settled P loop com fd →
      Settled P loop' com fd) :
    Inv P Known entities (loops.set l loop') := by
  have bound := (List.getElem?_eq_some_iff.mp at_l).1
  have other : ∀ {j}, l ≠ j → (loops.set l loop')[j]? = loops[j]? :=
    fun apart => List.getElem?_set_ne apart
  refine ⟨inv.distinct, fun {j found} at_j => ?_, fun {com entity} at_com => ?_⟩
  · rcases eq_or_ne l j with rfl | apart
    · rw [List.getElem?_set_self bound] at at_j
      obtain rfl := Option.some.inj at_j
      exact loopInv
    · exact inv.loop ((other apart).symm.trans at_j)
  · obtain ⟨found, at_j, done⟩ := inv.settled at_com
    obtain ⟨j, fd⟩ := entity
    rcases eq_or_ne l j with rfl | apart
    · obtain rfl := Option.some.inj (at_l.symm.trans at_j)
      exact ⟨loop', List.getElem?_set_self bound, settled com fd at_com done⟩
    · exact ⟨found, (other apart).trans at_j, done⟩

/-- A new entity, whose loop takes it over. -/
theorem Inv.create (inv : Inv P Known entities loops) (at_l : loops[l]? = some loop)
    (new : fd ∉ entities.map ComEntity.fd)
    (loopInv : LoopInv P Known (entities ++ [⟨l, fd⟩]) l loop')
    (settled : ∀ com fd, Settled P loop com fd → Settled P loop' com fd)
    (settled_new : Settled P loop' entities.length fd) :
    Inv P Known (entities ++ [⟨l, fd⟩]) (loops.set l loop') := by
  have bound := (List.getElem?_eq_some_iff.mp at_l).1
  have other : ∀ {j}, l ≠ j → (loops.set l loop')[j]? = loops[j]? :=
    fun apart => List.getElem?_set_ne apart
  refine ⟨?_, fun {j found} at_j => ?_, fun {com entity} at_com => ?_⟩
  · rw [List.map_append, List.map_singleton]
    exact inv.distinct.append (List.nodup_singleton _) (by simpa using new)
  · rcases eq_or_ne l j with rfl | apart
    · rw [List.getElem?_set_self bound] at at_j
      obtain rfl := Option.some.inj at_j
      exact loopInv
    · exact (inv.loop ((other apart).symm.trans at_j)).append _
  · rcases lt_or_ge com entities.length with old | beyond
    · rw [List.getElem?_append_left old] at at_com
      obtain ⟨found, at_j, done⟩ := inv.settled at_com
      obtain ⟨j, fd'⟩ := entity
      rcases eq_or_ne l j with rfl | apart
      · obtain rfl := Option.some.inj (at_l.symm.trans at_j)
        exact ⟨loop', List.getElem?_set_self bound, settled com fd' done⟩
      · exact ⟨found, (other apart).trans at_j, done⟩
    · have last := (List.getElem?_eq_some_iff.mp at_com).1
      rw [List.length_append, List.length_singleton] at last
      obtain rfl : com = entities.length := by omega
      rw [List.getElem?_concat_length] at at_com
      obtain rfl := Option.some.inj at_com
      exact ⟨loop', List.getElem?_set_self bound, settled_new⟩

/-! ### Establishing an entity -/

/-- What `comEstablished` makes of a loop's channels and poller. -/
structure Establishes (P : Poller σ) (Known : σ → Prop) (fd : Fd) (watch watch' : Poller.State σ) :
    Prop where
  poller : Known watch'.poller
  knows : ∀ g, P.knows watch'.poller g = true ↔ P.knows watch.poller g = true ∨ g = fd
  others : ∀ g ≠ fd, watch'.channels g = watch.channels g

theorem comEstablished_eq {s : State σ} (registers : P.Registers Known)
    (at_com : s.entities[com]? = some ⟨l, fd⟩) (at_l : s.loops[l]? = some loop)
    (known : Known loop.watch.poller) (fresh : (loop.watch.channels fd).Fresh)
    (unknown : P.knows loop.watch.poller fd = false) :
    ∃ watch, comEstablished P com s = some (s.setLoop l { loop with watch }) ∧
      Establishes P Known fd loop.watch watch := by
  let tied := loop.watch.modify fd fun c => { c with tied := true, tieAlive := true }
  have tied_fd :
      tied.channels fd = { loop.watch.channels fd with tied := true, tieAlive := true } :=
    Function.update_self ..
  have fresh' : (tied.channels fd).Fresh := by
    rw [tied_fd]
    exact ⟨fresh.events, fresh.index⟩
  obtain ⟨watch, enabled, known', knows, others⟩ :=
    registers.enableReading (s := tied) known fresh' unknown
  refine ⟨watch, ?_, known', knows, fun g other => ?_⟩
  · simp only [comEstablished, at_com, at_l, Option.bind_eq_bind, Option.bind_some]
    rw [show P.enableReading fd (loop.watch.modify fd _) = some watch from enabled]
    rfl
  · exact (others g other).trans (Function.update_of_ne other ..)

theorem LoopInv.establish {watch : Poller.State σ} (inv : LoopInv P Known entities l loop)
    (distinct : (entities.map ComEntity.fd).Nodup) (at_com : entities[com]? = some ⟨l, fd⟩)
    (establishes : Establishes P Known fd loop.watch watch) (same : loop'.watch = watch)
    (own : ∀ com, loop'.Holds com → ∃ fd, entities[com]? = some ⟨l, fd⟩)
    (fewer : loop'.unestablished.Sublist loop.unestablished) (called : com ∉ loop'.unestablished) :
    LoopInv P Known entities l loop' := by
  subst same
  refine ⟨establishes.poller, fun g unknown => ?_, fun g known => ?_, own, fun c mem g at_c => ?_,
    fewer.nodup inv.once⟩
  · have not_known : ¬ (P.knows loop.watch.poller g = true ∨ g = fd) := by
      rw [← establishes.knows]
      simpa using unknown
    rw [not_or] at not_known
    rw [establishes.others g not_known.2]
    exact inv.fresh g (by simpa using not_known.1)
  · rcases (establishes.knows g).mp known with old | rfl
    · exact inv.known g old
    · exact List.mem_of_getElem? at_com
  · have old := inv.unknown c (fewer.subset mem) g at_c
    have apart : g ≠ fd := by
      rintro rfl
      exact called (eq_of_same_fd distinct at_c at_com rfl ▸ mem)
    rw [← Bool.not_eq_true, establishes.knows, not_or]
    exact ⟨by rw [old]; decide, apart⟩

theorem Settled.establish {watch : Poller.State σ} (settled : Settled P loop com fd) {g : Fd}
    (establishes : Establishes P Known g loop.watch watch) (same : loop'.watch = watch)
    (phase : loop.phase = .exited → loop'.phase = .exited)
    (kept : com ∈ loop.unestablished → com ∈ loop'.unestablished ∨ fd = g) :
    Settled P loop' com fd := by
  subst same
  rcases settled with gone | known | waiting
  · exact .inl (phase gone)
  · exact .inr (.inl ((establishes.knows fd).mpr (.inl known)))
  · rcases kept waiting with waiting | rfl
    · exact .inr (.inr waiting)
    · exact .inr (.inl ((establishes.knows _).mpr (.inr rfl)))

theorem Settled.of_same (settled : Settled P loop com fd) (watch : loop'.watch = loop.watch)
    (phase : loop.phase = .exited → loop'.phase = .exited)
    (kept : com ∈ loop.unestablished → com ∈ loop'.unestablished) : Settled P loop' com fd := by
  rcases settled with gone | known | waiting
  · exact .inl (phase gone)
  · exact .inr (.inl (watch ▸ known))
  · exact .inr (.inr (kept waiting))

/-! ### Queueing a functor -/

def Loop.queue (loop : Loop σ) (functor : Functor) : Loop σ :=
  { loop with pendingFunctors := loop.pendingFunctors ++ [functor] }

theorem uncalled_queue (functor : Functor) :
    (loop.queue functor).uncalled = loop.uncalled ++ [functor] := by
  rw [Loop.uncalled, Loop.uncalled, Loop.queue]
  cases loop.phase <;> simp

theorem functors_queue (functor : Functor) :
    (loop.queue functor).functors = loop.functors ++ [functor] := by
  rw [Loop.functors, Loop.functors, Loop.queue]
  cases loop.phase <;> simp

theorem holds_queue {functor : Functor} (held : (loop.queue functor).Holds com) :
    loop.Holds com ∨ com = functor.com := by
  rw [Loop.Holds, functors_queue, List.map_append, List.mem_append, List.map_singleton,
    List.mem_singleton] at held
  rcases held with (held | itself) | handling
  · exact .inl (.inl held)
  · exact .inr itself
  · exact .inl (.inr handling)

end Loops

/-! ### The steps keep the invariant -/

/-- The part of the invariant that is about the map. -/
structure StateInv (P : Poller σ) (Known : σ → Prop) (s : State σ) : Prop where
  base : Inv P Known s.entities s.loops
  mapped : ∀ com ∈ s.comEntities.map Prod.snd, com < s.entities.length
  /-- While the server lives, it holds every entity. -/
  held : s.server = .alive → ∀ com < s.entities.length, com ∈ s.comEntities.map Prod.snd

section Steps

variable {s t : State σ} {l : Nat} {loop : Loop σ}

/-- The new entity is established at once. -/
theorem create_base {fd : Fd} {watch : Poller.State σ} {entities : List ComEntity}
    {loops : List (Loop σ)} (inv : Inv P Known entities loops) (at_l : loops[l]? = some loop)
    (new : fd ∉ entities.map ComEntity.fd) (establishes : Establishes P Known fd loop.watch watch) :
    Inv P Known (entities ++ [⟨l, fd⟩]) (loops.set l { loop with watch }) := by
  have loopInv := (inv.loop at_l).append ⟨l, fd⟩
  have at_com : (entities ++ [⟨l, fd⟩])[entities.length]? = some (⟨l, fd⟩ : ComEntity) :=
    List.getElem?_concat_length
  have distinct : ((entities ++ [(⟨l, fd⟩ : ComEntity)]).map ComEntity.fd).Nodup := by
    rw [List.map_append, List.map_singleton]
    exact inv.distinct.append (List.nodup_singleton _) (by simpa using new)
  have not_waiting := (inv.loop at_l).length_not_mem
  refine inv.create at_l new
    (loopInv.establish distinct at_com establishes rfl loopInv.own (.refl _) not_waiting)
    (fun com fd settled => settled.establish establishes rfl id fun waiting => .inl waiting)
    (.inr (.inl ((establishes.knows fd).mpr (.inr rfl))))

/-- The new entity is to be established by its loop. -/
theorem create_queued {fd : Fd} {entities : List ComEntity} {loops : List (Loop σ)}
    (inv : Inv P Known entities loops) (at_l : loops[l]? = some loop)
    (new : fd ∉ entities.map ComEntity.fd) :
    Inv P Known (entities ++ [⟨l, fd⟩])
      (loops.set l (loop.queue (.comEstablished entities.length))) := by
  have loopInv := (inv.loop at_l).append ⟨l, fd⟩
  have at_com : (entities ++ [⟨l, fd⟩])[entities.length]? = some (⟨l, fd⟩ : ComEntity) :=
    List.getElem?_concat_length
  have waiting : (loop.queue (.comEstablished entities.length)).unestablished =
      loop.unestablished ++ [entities.length] := by
    rw [Loop.unestablished, uncalled_queue, List.filterMap_append]
    rfl
  have not_waiting := (inv.loop at_l).length_not_mem
  refine inv.create at_l new ⟨loopInv.poller, loopInv.fresh, loopInv.known, ?_, ?_, ?_⟩ ?_ ?_
  · intro com held
    rcases holds_queue held with old | rfl
    · exact loopInv.own com old
    · exact ⟨fd, at_com⟩
  · intro com mem g at_g
    rw [waiting, List.mem_append, List.mem_singleton] at mem
    rcases mem with old | rfl
    · exact loopInv.unknown com old g at_g
    · cases at_com.symm.trans at_g
      rw [← Bool.not_eq_true]
      intro known
      exact new (List.mem_map_of_mem (f := ComEntity.fd) ((inv.loop at_l).known fd known))
  · rw [waiting]
    exact loopInv.once.append (List.nodup_singleton _) (by simpa using not_waiting)
  · intro com fd settled
    refine settled.of_same rfl id fun mem => ?_
    rw [waiting]
    exact List.mem_append_left _ mem
  · refine .inr (.inr ?_)
    rw [waiting]
    exact List.mem_append_right _ (List.mem_singleton_self _)

theorem mem_orderedInsert (entityName : String) (com c : Nat) (entries : List (String × Nat)) :
    c ∈ (entries.orderedInsert (fun a b => a.1 ≤ b.1) (entityName, com)).map Prod.snd ↔
      c = com ∨ c ∈ entries.map Prod.snd := by
  rw [((List.perm_orderedInsert _ _ _).map Prod.snd).mem_iff, List.map_cons, List.mem_cons]

theorem create_inv {entityName : String} {fd : Fd} (registers : P.Registers Known)
    (inv : StateInv P Known s) (new : fd ∉ s.entities.map ComEntity.fd)
    (step : createComEntityAndInsert P entityName fd s = some t) : StateInv P Known t := by
  rw [createComEntityAndInsert] at step
  split at step
  · cases step
    exact inv
  · generalize getNextLoop s = nextLoop at step
    obtain ⟨ioLoop, next⟩ := nextLoop
    dsimp only at step
    -- Whatever becomes of its functor, the new entity is in the map.
    have inserted : ∀ loops, Inv P Known (s.entities ++ [⟨ioLoop, fd⟩]) loops →
        StateInv P Known { s with
          loops
          next
          nextEntityId := s.nextEntityId + 1
          entities := s.entities ++ [⟨ioLoop, fd⟩]
          comEntities := s.comEntities.orderedInsert (fun a b => a.1 ≤ b.1)
            (entityName, s.entities.length) } := by
      intro loops base
      refine ⟨base, fun com mem => ?_, fun alive com bound => ?_⟩
      · rw [mem_orderedInsert] at mem
        rw [List.length_append, List.length_singleton]
        rcases mem with rfl | old
        · omega
        · have := inv.mapped com old
          omega
      · rw [mem_orderedInsert]
        rw [List.length_append, List.length_singleton] at bound
        rcases eq_or_ne com s.entities.length with rfl | other
        · exact .inl rfl
        · exact .inr (inv.held alive com (by omega))
    cases at_l : s.loops[ioLoop]? with
    | none =>
        rw [runInLoop] at step
        split at step
        · simp [Functor.call, comEstablished, at_l] at step
        · simp [queueInLoop, at_l] at step
    | some loop =>
        rw [runInLoop] at step
        split at step
        · have loopInv := inv.base.loop at_l
          have unknown : P.knows loop.watch.poller fd = false := by
            rw [← Bool.not_eq_true]
            intro known
            exact new (List.mem_map_of_mem (f := ComEntity.fd) (loopInv.known fd known))
          obtain ⟨watch, established, establishes⟩ := comEstablished_eq (s := { s with
            next
            nextEntityId := s.nextEntityId + 1
            entities := s.entities ++ [⟨ioLoop, fd⟩]
            comEntities := s.comEntities.orderedInsert (fun a b => a.1 ≤ b.1)
              (entityName, s.entities.length) }) registers List.getElem?_concat_length at_l
            loopInv.poller (loopInv.fresh fd unknown) unknown
          cases established.symm.trans step
          exact inserted _ (create_base inv.base at_l new establishes)
        · simp only [queueInLoop, at_l, Option.bind_eq_bind, Option.bind_some] at step
          cases step
          exact inserted _ (create_queued inv.base at_l new)

theorem StateInv.setLoop {loop' : Loop σ} (inv : StateInv P Known s)
    (base : Inv P Known s.entities (s.loops.set l loop')) : StateInv P Known (s.setLoop l loop') :=
  ⟨base, inv.mapped, inv.held⟩

/-- A loop that only moves on. -/
theorem StateInv.narrow {loop' : Loop σ} (inv : StateInv P Known s) (at_l : s.loops[l]? = some loop)
    (watch : loop'.watch = loop.watch) (gone : loop.phase = .exited → loop'.phase = .exited)
    (own : ∀ com, loop'.Holds com → ∃ fd, s.entities[com]? = some ⟨l, fd⟩)
    (same : loop'.unestablished = loop.unestablished) :
    StateInv P Known (s.setLoop l loop') := by
  refine inv.setLoop (inv.base.set at_l
    ((inv.base.loop at_l).narrow watch own (by rw [same])) fun com fd _ settled => ?_)
  exact settled.of_same watch gone fun mem => same ▸ mem

/-- A loop that goes on without holding anything new. -/
theorem StateInv.proceed {loop' : Loop σ} (inv : StateInv P Known s)
    (at_l : s.loops[l]? = some loop) (watch : loop'.watch = loop.watch)
    (running : loop.phase ≠ .exited) (holds : ∀ com, loop'.Holds com → loop.Holds com)
    (same : loop'.unestablished = loop.unestablished) : StateInv P Known (s.setLoop l loop') := by
  refine inv.narrow at_l watch (fun gone => absurd gone running) ?_ same
  intro com held
  exact (inv.base.loop at_l).own com (holds com held)

theorem callFunctor_inv {called functors : List Functor} {functor : Functor}
    (registers : P.Registers Known) (inv : StateInv P Known s) (at_l : s.loops[l]? = some loop)
    (phase : loop.phase = .calling called (functor :: functors)) :
    ∃ watch, functor.call P
        (s.setLoop l { loop with phase := .calling (called ++ [functor]) functors }) =
          some (s.setLoop l
            ⟨watch, loop.pendingFunctors, .calling (called ++ [functor]) functors⟩) ∧
      StateInv P Known
        (s.setLoop l ⟨watch, loop.pendingFunctors, .calling (called ++ [functor]) functors⟩) := by
  have loopInv := inv.base.loop at_l
  have bound := (List.getElem?_eq_some_iff.mp at_l).1
  -- Nothing is let go of before the whole batch has run.
  have own : ∀ (watch : Poller.State σ) com,
      Loop.Holds ⟨watch, loop.pendingFunctors, .calling (called ++ [functor]) functors⟩ com →
      ∃ fd, s.entities[com]? = some ⟨l, fd⟩ := by
    intro watch com held
    apply loopInv.own com
    rw [Loop.Holds, Loop.functors, phase]
    rw [Loop.Holds, Loop.functors] at held
    simpa using held
  cases functor with
  | comDestroyed com =>
      refine ⟨loop.watch, rfl, inv.narrow at_l rfl (by rw [phase]; nofun) (own _) ?_⟩
      rw [Loop.unestablished, Loop.unestablished, Loop.uncalled, Loop.uncalled, phase]
      rfl
  | comEstablished com =>
      have waiting : loop.unestablished = com :: Loop.unestablished
          ⟨loop.watch, loop.pendingFunctors,
            .calling (called ++ [.comEstablished com]) functors⟩ := by
        rw [Loop.unestablished, Loop.unestablished, Loop.uncalled, Loop.uncalled, phase]
        rfl
      have mem : com ∈ loop.unestablished := by
        rw [waiting]
        exact List.mem_cons_self ..
      obtain ⟨fd, at_com⟩ := loopInv.own com (holds_of_unestablished mem)
      have unknown := loopInv.unknown com mem fd at_com
      have once := loopInv.once
      rw [waiting, List.nodup_cons] at once
      obtain ⟨watch, established, establishes⟩ := comEstablished_eq
        (s := s.setLoop l
          { loop with phase := .calling (called ++ [.comEstablished com]) functors })
        registers at_com (List.getElem?_set_self bound) loopInv.poller (loopInv.fresh fd unknown)
        unknown
      refine ⟨watch, ?_, inv.setLoop (inv.base.set at_l ?_ fun c g at_c settled => ?_)⟩
      · rw [Functor.call, established, State.setLoop, State.setLoop, State.setLoop, List.set_set]
      · refine loopInv.establish inv.base.distinct at_com establishes rfl (own _) ?_ once.1
        rw [waiting]
        exact List.sublist_cons_self ..
      · refine settled.establish establishes rfl (fun gone => ?_) fun waiting_c => ?_
        · rw [phase] at gone
          cases gone
        · rw [waiting, List.mem_cons] at waiting_c
          rcases waiting_c with rfl | later
          · cases at_com.symm.trans at_c
            exact .inr rfl
          · exact .inl later

theorem destroyNext_inv (inv : StateInv P Known s) (destroying : s.server = .destroying) :
    ∃ t, destroyNext P s = some t ∧ StateInv P Known t ∧ t.entities = s.entities ∧
      t.comEntities = s.comEntities.tail ∧ (s.comEntities ≠ [] → t.server = .destroying) := by
  rw [destroyNext]
  cases entries : s.comEntities with
  | nil => exact ⟨_, rfl, ⟨inv.base, nofun, nofun⟩, rfl, rfl, fun some => absurd rfl some⟩
  | cons head rest =>
      obtain ⟨entityName, com⟩ := head
      have mapped := inv.mapped
      rw [entries] at mapped
      have bound : com < s.entities.length := mapped com (List.mem_cons_self ..)
      have at_com : s.entities[com]? = some s.entities[com] := List.getElem?_eq_getElem bound
      obtain ⟨loop, at_l, -⟩ := inv.base.settled at_com
      have popped : StateInv P Known { s with comEntities := rest } :=
        ⟨inv.base, fun c mem => mapped c (List.mem_cons_of_mem _ mem), by
          intro alive
          cases destroying.symm.trans alive⟩
      simp only [at_com, Option.bind_eq_bind, Option.bind_some, runInLoop]
      split
      · exact ⟨_, rfl, popped, rfl, rfl, fun _ => destroying⟩
      · simp only [queueInLoop, at_l, Option.bind_eq_bind, Option.bind_some]
        refine ⟨_, rfl, popped.narrow at_l rfl id ?_ ?_,
          rfl, rfl, fun _ => destroying⟩
        · intro c held
          rcases holds_queue held with old | rfl
          · exact (inv.base.loop at_l).own c old
          · exact ⟨_, at_com⟩
        · change (loop.queue (.comDestroyed com)).unestablished = _
          rw [Loop.unestablished, uncalled_queue, List.filterMap_append]
          exact List.append_nil _

/-- A loop that knows nothing and holds nothing. -/
theorem newLoop_inv (registers : P.Registers Known) (entities : List ComEntity) (l : Nat)
    (loop : Loop σ) (watch : loop.watch = (Loop.new P).watch) (empty : loop.functors = [])
    (free : ∀ com, loop.phase ≠ .handling com) : LoopInv P Known entities l loop := by
  have waiting : loop.unestablished = [] := by
    have uncalled : loop.uncalled = [] := by
      have subset : loop.uncalled ⊆ loop.functors := uncalled_subset
      rw [empty] at subset
      exact List.subset_nil.mp subset
    rw [Loop.unestablished, uncalled, List.filterMap_nil]
  refine ⟨?_, fun fd _ => ?_, fun fd known => ?_, fun com held => ?_, fun com mem => ?_, ?_⟩
  · rw [watch]
    exact registers.new
  · rw [watch]
    exact ⟨rfl, rfl⟩
  · rw [watch] at known
    cases (registers.unknown fd).symm.trans known
  · rcases held with mem | handling
    · rw [empty] at mem
      cases mem
    · exact absurd handling (free com)
  · rw [waiting] at mem
    cases mem
  · rw [waiting]
    exact List.nodup_nil

theorem start_inv (registers : P.Registers Known) (inv : StateInv P Known s) (numThreads : Nat) :
    StateInv P Known (start P numThreads s) := by
  rw [start]
  split
  · exact inv
  · refine ⟨⟨inv.base.distinct, fun {l loop} at_l => ?_, fun {com entity} at_com => ?_⟩,
      inv.mapped, inv.held⟩
    · rcases lt_or_ge l s.loops.length with old | beyond
      · rw [List.getElem?_append_left old] at at_l
        exact inv.base.loop at_l
      · rw [List.getElem?_append_right beyond] at at_l
        obtain rfl := List.eq_of_mem_replicate (List.mem_of_getElem? at_l)
        exact newLoop_inv registers _ l _ rfl rfl nofun
    · obtain ⟨loop, at_l, settled⟩ := inv.base.settled at_com
      have old := (List.getElem?_eq_some_iff.mp at_l).1
      exact ⟨loop, (List.getElem?_append_left old).trans at_l, settled⟩

theorem step_inv {label : Label} (registers : P.Registers Known) (inv : StateInv P Known s)
    (step : (machine P).step s label = some t) : StateInv P Known t := by
  have step : ComServer.step P s label = some t := step
  cases label with
  | start numThreads =>
      obtain ⟨-, ⟨⟩⟩ := Option.ite_none_right_eq_some.mp step
      exact start_inv registers inv numThreads
  | create entityName fd =>
      obtain ⟨⟨-, new⟩, step⟩ := Option.ite_none_right_eq_some.mp step
      exact create_inv registers inv new step
  | handleEvent l fd =>
      obtain ⟨loop, at_l, step⟩ := Option.bind_eq_some_iff.mp step
      obtain ⟨com, at_fd, step⟩ := Option.bind_eq_some_iff.mp step
      obtain ⟨⟨phase, known, -⟩, ⟨⟩⟩ := Option.ite_none_right_eq_some.mp step
      refine inv.narrow at_l rfl (by rw [phase]; nofun) (fun c held => ?_) ?_
      · rcases held with mem | handling
        · apply (inv.base.loop at_l).own c
          rw [Loop.Holds, Loop.functors, phase]
          exact .inl mem
        · cases handling
          obtain ⟨bound, has_fd, -⟩ := List.findIdx?_eq_some_iff_getElem.mp at_fd
          obtain ⟨d, at_d⟩ := List.mem_iff_getElem?.mp ((inv.base.loop at_l).known fd known)
          obtain rfl := eq_of_same_fd inv.base.distinct (List.getElem?_eq_getElem bound) at_d
            (of_decide_eq_true has_fd)
          exact ⟨fd, at_d⟩
      · rw [Loop.unestablished, Loop.unestablished, Loop.uncalled, Loop.uncalled, phase]
  | handled l =>
      obtain ⟨loop, at_l, step⟩ := Option.bind_eq_some_iff.mp step
      split at step
      · rename_i com phase
        cases step
        refine inv.proceed at_l rfl (by rw [phase]; nofun) (fun c held => ?_) ?_
        · rw [Loop.Holds, Loop.functors, phase]
          exact .inl (held.resolve_right nofun)
        · rw [Loop.unestablished, Loop.unestablished, Loop.uncalled, Loop.uncalled, phase]
      · cases step
  | doPendingFunctors l =>
      obtain ⟨loop, at_l, step⟩ := Option.bind_eq_some_iff.mp step
      obtain ⟨phase, ⟨⟩⟩ := Option.ite_none_right_eq_some.mp step
      refine inv.proceed at_l rfl (by rw [phase]; nofun) (fun c held => ?_) ?_
      · rw [Loop.Holds, Loop.functors, phase]
        rw [Loop.Holds, Loop.functors] at held
        simpa using held
      · rw [Loop.unestablished, Loop.unestablished, Loop.uncalled, Loop.uncalled, phase]
        simp
  | callFunctor l =>
      obtain ⟨loop, at_l, step⟩ := Option.bind_eq_some_iff.mp step
      split at step
      · rename_i called functor functors phase
        obtain ⟨watch, ran, inv'⟩ := callFunctor_inv registers inv at_l phase
        cases ran.symm.trans step
        exact inv'
      · cases step
  | functorsDone l =>
      obtain ⟨loop, at_l, step⟩ := Option.bind_eq_some_iff.mp step
      split at step
      · rename_i called phase
        cases step
        refine inv.proceed at_l rfl (by rw [phase]; nofun) (fun c held => ?_) ?_
        · rw [Loop.Holds, Loop.functors, phase]
          have pending : c ∈ loop.pendingFunctors.map Functor.com := held.resolve_right nofun
          rw [List.map_append]
          exact .inl (List.mem_append_right _ pending)
        · rw [Loop.unestablished, Loop.unestablished, Loop.uncalled, Loop.uncalled, phase]
          rfl
      · cases step
  | destroy =>
      obtain ⟨-, ⟨⟩⟩ := Option.ite_none_right_eq_some.mp step
      exact ⟨inv.base, inv.mapped, nofun⟩
  | destroyNext =>
      obtain ⟨destroying, step⟩ := Option.ite_none_right_eq_some.mp step
      obtain ⟨u, ran, inv', -⟩ := destroyNext_inv inv destroying
      cases ran.symm.trans step
      exact inv'
  | exit l =>
      obtain ⟨loop, at_l, step⟩ := Option.bind_eq_some_iff.mp step
      obtain ⟨-, ⟨⟩⟩ := Option.ite_none_right_eq_some.mp step
      exact inv.setLoop (inv.base.set at_l (newLoop_inv registers _ l _ rfl rfl nofun)
        fun _ _ _ _ => .inl rfl)

end Steps

theorem reachable_inv {s : State σ} (registers : P.Registers Known)
    (reach : (machine P).Reachable s) : StateInv P Known s := by
  refine reach.invariant ?_ fun _ _ _ inv step => step_inv registers inv step
  rintro _ rfl
  refine ⟨⟨List.nodup_nil, fun {l loop} at_l => ?_, nofun⟩, nofun, fun _ => nofun⟩
  obtain rfl := List.mem_singleton.mp (List.mem_of_getElem? at_l)
  exact newLoop_inv registers _ l _ rfl rfl nofun

/-! ### What a step can do -/

section Turns

variable {s t u : State σ} {l : Nat} {loop loop' : Loop σ}

/-- What the loops do leaves the server and its entities, and ends no loop. -/
structure Turned (s t : State σ) : Prop where
  entities : t.entities = s.entities
  comEntities : t.comEntities = s.comEntities
  server : t.server = s.server
  running : (∀ loop ∈ s.loops, loop.phase ≠ .exited) → ∀ loop ∈ t.loops, loop.phase ≠ .exited

theorem Turned.refl (s : State σ) : Turned s s := ⟨rfl, rfl, rfl, id⟩

theorem Turned.trans (first : Turned s t) (second : Turned t u) : Turned s u :=
  ⟨second.entities.trans first.entities, second.comEntities.trans first.comEntities,
    second.server.trans first.server, second.running ∘ first.running⟩

theorem Turned.setLoop (at_l : s.loops[l]? = some loop)
    (phase : loop.phase ≠ .exited → loop'.phase ≠ .exited) : Turned s (s.setLoop l loop') := by
  refine ⟨rfl, rfl, rfl, fun running found mem => ?_⟩
  rcases List.mem_or_eq_of_mem_set mem with old | rfl
  · exact running found old
  · exact phase (running loop (List.mem_of_getElem? at_l))

/-- At most one loop has been changed, and not its phase. -/
def Touched (s t : State σ) : Prop :=
  t = s ∨ ∃ l loop loop', s.loops[l]? = some loop ∧ t = s.setLoop l loop' ∧
    loop'.phase = loop.phase

theorem call_touched {functor : Functor} (called : functor.call P s = some t) : Touched s t := by
  cases functor with
  | comEstablished com =>
      obtain ⟨entity, -, called⟩ := Option.bind_eq_some_iff.mp called
      obtain ⟨loop, at_l, called⟩ := Option.bind_eq_some_iff.mp called
      obtain ⟨watch, -, ⟨⟩⟩ := Option.bind_eq_some_iff.mp called
      exact .inr ⟨_, loop, _, at_l, rfl, rfl⟩
  | comDestroyed com =>
      cases called
      exact .inl rfl

theorem runInLoop_touched {functor : Functor} (ran : runInLoop P l functor s = some t) :
    Touched s t := by
  rw [runInLoop] at ran
  split at ran
  · exact call_touched ran
  · obtain ⟨loop, at_l, ⟨⟩⟩ := Option.bind_eq_some_iff.mp ran
    exact .inr ⟨l, loop, _, at_l, rfl, rfl⟩

theorem Touched.turned (touched : Touched s t) : Turned s t := by
  rcases touched with rfl | ⟨l, loop, loop', at_l, rfl, phase⟩
  · exact .refl _
  · exact .setLoop at_l phase.trans_ne

theorem runInLoop_turned {functor : Functor} (ran : runInLoop P l functor s = some t) :
    Turned s t :=
  (runInLoop_touched ran).turned

theorem start_turned (numThreads : Nat) : Turned s (start P numThreads s) := by
  rw [start]
  split
  · exact .refl s
  · refine ⟨rfl, rfl, rfl, fun running loop mem => ?_⟩
    rcases List.mem_append.mp mem with old | new
    · exact running loop old
    · obtain rfl := List.eq_of_mem_replicate new
      nofun

/-- What a step does. -/
inductive Does (s : State σ) (label : Label) (t : State σ) : Prop where
  | turns (turned : Turned s t)
  /-- Only a living server gets new entities. -/
  | creates (alive : s.server = .alive) (s' : State σ) (turned : Turned s' t)
      (server : s'.server = s.server) (loops : s'.loops = s.loops)
  /-- Only `~ComServer` ends the server's life. -/
  | destroys (begins : label = .destroy) (alive : s.server = .alive)
      (entities : t.entities = s.entities) (loops : t.loops = s.loops)
  | resets (destroying : s.server = .destroying) (s' : State σ) (turned : Turned s' t)
      (entities : s'.entities = s.entities) (loops : s'.loops = s.loops)
  /-- Loops end after the destructor has returned. -/
  | exits (destroyed : s.server = .destroyed) (server : t.server = s.server)
      (entities : t.entities = s.entities)

theorem step_does {label : Label} (step : (machine P).step s label = some t) :
    Does s label t := by
  have step : ComServer.step P s label = some t := step
  cases label with
  | start numThreads =>
      obtain ⟨-, ⟨⟩⟩ := Option.ite_none_right_eq_some.mp step
      exact .turns (start_turned numThreads)
  | create entityName fd =>
      obtain ⟨⟨alive, -⟩, step⟩ := Option.ite_none_right_eq_some.mp step
      rw [createComEntityAndInsert] at step
      split at step
      · cases step
        exact .turns (.refl s)
      · have turned := runInLoop_turned step
        exact .creates alive _ turned rfl rfl
  | handleEvent l fd =>
      obtain ⟨loop, at_l, step⟩ := Option.bind_eq_some_iff.mp step
      obtain ⟨com, -, step⟩ := Option.bind_eq_some_iff.mp step
      obtain ⟨-, ⟨⟩⟩ := Option.ite_none_right_eq_some.mp step
      exact .turns (.setLoop at_l fun _ => nofun)
  | handled l | functorsDone l =>
      obtain ⟨loop, at_l, step⟩ := Option.bind_eq_some_iff.mp step
      split at step <;> cases step
      exact .turns (.setLoop at_l fun _ => nofun)
  | callFunctor l =>
      obtain ⟨loop, at_l, step⟩ := Option.bind_eq_some_iff.mp step
      split at step
      · refine .turns (.trans ?_ (call_touched step).turned)
        exact .setLoop at_l fun _ => nofun
      · cases step
  | doPendingFunctors l =>
      obtain ⟨loop, at_l, step⟩ := Option.bind_eq_some_iff.mp step
      obtain ⟨-, ⟨⟩⟩ := Option.ite_none_right_eq_some.mp step
      exact .turns (.setLoop at_l fun _ => nofun)
  | destroy =>
      obtain ⟨alive, ⟨⟩⟩ := Option.ite_none_right_eq_some.mp step
      exact .destroys rfl alive rfl rfl
  | destroyNext =>
      obtain ⟨destroying, step⟩ := Option.ite_none_right_eq_some.mp step
      rw [destroyNext] at step
      split at step
      · cases step
        exact .resets destroying _ (.refl _) rfl rfl
      · obtain ⟨entity, -, step⟩ := Option.bind_eq_some_iff.mp step
        exact .resets destroying _ (runInLoop_turned step) rfl rfl
  | exit l =>
      obtain ⟨loop, -, step⟩ := Option.bind_eq_some_iff.mp step
      obtain ⟨⟨destroyed, -, -⟩, ⟨⟩⟩ := Option.ite_none_right_eq_some.mp step
      exact .exits destroyed rfl rfl

end Turns

/-! ### A server that is destroyed empty -/

/-- Only `~ComServer` ends the server's life, and only a living server gets new entities. -/
theorem step_frame {s t : State σ} {label : Label} (step : (machine P).step s label = some t) :
    (t.server ≠ .alive → s.server ≠ .alive ∨ label = .destroy) ∧
      (t.entities = s.entities ∨ s.server = .alive ∧ t.server = .alive) := by
  cases step_does step with
  | turns turned =>
      rw [turned.server, turned.entities]
      exact ⟨.inl, .inl rfl⟩
  | creates alive s' turned server _ =>
      have still : t.server = .alive := turned.server.trans (server.trans alive)
      exact ⟨fun dead => absurd still dead, .inr ⟨alive, still⟩⟩
  | destroys begins _ entities _ => exact ⟨fun _ => .inr begins, .inl entities⟩
  | resets destroying s' turned entities _ =>
      exact ⟨fun _ => .inl (by rw [destroying]; nofun), .inl (turned.entities.trans entities)⟩
  | exits destroyed _ entities =>
      exact ⟨fun _ => .inl (by rw [destroyed]; nofun), .inl entities⟩

/-- A server that was destroyed empty has never had an entity. -/
theorem destroyed_empty {s : State σ} (registers : P.Registers Known)
    (reach : (machine P).ReachableWhere DestroyedEmpty s) :
    StateInv P Known s ∧ (s.server ≠ .alive → s.entities = []) := by
  refine reach.invariant (I := fun s => StateInv P Known s ∧ (s.server ≠ .alive → s.entities = []))
    ?_ ?_
  · rintro _ rfl
    exact ⟨reachable_inv registers (.of_init rfl), fun dead => absurd rfl dead⟩
  · rintro s label t ⟨inv, empty⟩ meets step
    refine ⟨step_inv registers inv step, fun dead => ?_⟩
    obtain ⟨ended, kept⟩ := step_frame step
    rw [kept.resolve_right fun alive => dead alive.2]
    rcases ended dead with before | rfl
    · exact empty before
    · obtain ⟨alive, -⟩ := Option.ite_none_right_eq_some.mp step
      have held := inv.held alive
      rw [meets rfl] at held
      cases at_end : s.entities with
      | nil => rfl
      | cons entity entities =>
          have in_map := held 0 (by rw [at_end]; exact Nat.succ_pos _)
          cases in_map

theorem no_dangling_of_registers {s : State σ} (registers : P.Registers Known)
    (reach : (machine P).ReachableWhere DestroyedEmpty s) : NoDangling P s := by
  obtain ⟨inv, empty⟩ := destroyed_empty registers reach
  intro l loop fd at_l known
  obtain ⟨com, at_com⟩ := List.mem_iff_getElem?.mp ((inv.base.loop at_l).known fd known)
  refine ⟨com, at_com, .inl ?_⟩
  have bound := (List.getElem?_eq_some_iff.mp at_com).1
  by_cases alive : s.server = .alive
  · exact inv.held alive com bound
  · rw [empty alive] at bound
    cases bound

/-- **No channel dangles** in a run in which the server is destroyed only while it has no
entities, with either poller and with or without assertions. -/
theorem no_channel_dangles (debug : Bool) :
    (∀ s, (machine (Port.EPollPoller.poller debug)).ReachableWhere DestroyedEmpty s →
      NoDangling (Port.EPollPoller.poller debug) s) ∧
    (∀ s, (machine (Port.PollPoller.poller debug)).ReachableWhere DestroyedEmpty s →
      NoDangling (Port.PollPoller.poller debug) s) :=
  ⟨fun _ => no_dangling_of_registers (Port.EPollPoller.registers debug),
    fun _ => no_dangling_of_registers (Port.PollPoller.registers debug)⟩

/-- One entity, established in a pool thread, with either poller. -/
theorem no_channel_dangles_one :
    (∃ s loop, s.loops[1]? = some loop ∧
      (Port.EPollPoller.poller true).knows loop.watch.poller 5 = true ∧
      NoDangling (Port.EPollPoller.poller true) s) ∧
    (∃ s loop, s.loops[1]? = some loop ∧
      (Port.PollPoller.poller true).knows loop.watch.poller 5 = true ∧
      NoDangling (Port.PollPoller.poller true) s) := by
  let labels : List Label := [.start 1, .create "ttyS0" 5, .doPendingFunctors 1, .callFunctor 1]
  exact ⟨⟨_, _, rfl, rfl, (no_channel_dangles true).1 _
      ⟨_, rfl, Machine.leadsWhere_of_run labels (by decide) rfl⟩⟩,
    ⟨_, _, rfl, rfl, (no_channel_dangles true).2 _
      ⟨_, rfl, Machine.leadsWhere_of_run labels (by decide) rfl⟩⟩⟩

/-- An entity is destroyed with the functor that should have unregistered its channel. -/
theorem channel_outlives_entity : ¬ ∀ s, (machine (Port.EPollPoller.poller true)).Reachable s →
    NoDangling (Port.EPollPoller.poller true) s := by
  intro claimed
  let labels : List Label := [.start 1, .create "ttyS0" 5, .doPendingFunctors 1, .callFunctor 1,
    .functorsDone 1, .destroy, .destroyNext, .doPendingFunctors 1, .callFunctor 1, .functorsDone 1]
  obtain ⟨com, at_com, held⟩ := claimed _ (Machine.reachable_of_run labels rfl rfl) 1 _ 5 rfl rfl
  cases com with
  | zero => exact absurd held (by decide)
  | succ com => cases at_com

/-! ### A server that is destroyed with an entity -/

section Destruction

variable {s t : State σ} {l : Nat} {loop : Loop σ}

/-- A loop is not gone before the destructor has returned. -/
def Running (server : ServerPhase) (loops : List (Loop σ)) : Prop :=
  server ≠ .destroyed → ∀ loop ∈ loops, loop.phase ≠ .exited

theorem reachable_running (reach : (machine P).Reachable s) : Running s.server s.loops := by
  refine reach.invariant (I := fun s => Running s.server s.loops) ?_
    fun s label t running step => ?_
  · rintro _ rfl - loop mem
    obtain rfl := List.mem_singleton.mp mem
    nofun
  cases step_does step with
  | turns turned =>
      rw [turned.server]
      exact fun alive => turned.running (running alive)
  | creates alive s' turned _ loops =>
      refine fun _ => turned.running ?_
      rw [loops]
      exact running (by rw [alive]; nofun)
  | destroys _ alive _ loops =>
      rw [loops]
      exact fun _ => running (by rw [alive]; nofun)
  | resets destroying s' turned _ loops =>
      refine fun _ => turned.running ?_
      rw [loops]
      exact running (by rw [destroying]; nofun)
  | exits destroyed server _ =>
      rw [server]
      exact fun alive => absurd destroyed alive

/-- The rest of a batch runs, and the loop polls again. -/
theorem finish_batch (registers : P.Registers Known) (functors : List Functor)
    {called : List Functor} (inv : StateInv P Known s) (at_l : s.loops[l]? = some loop)
    (phase : loop.phase = .calling called functors) :
    ∃ t watch, (machine P).Leads s t ∧ t.entities = s.entities ∧
      t.comEntities = s.comEntities ∧
      t.loops[l]? = some ⟨watch, loop.pendingFunctors, .polling⟩ := by
  have bound := (List.getElem?_eq_some_iff.mp at_l).1
  induction functors generalizing s loop called with
  | nil =>
      have done : (machine P).step s (.functorsDone l) =
          some (s.setLoop l { loop with phase := .polling }) := by
        simp only [machine, step, at_l, Option.bind_eq_bind, Option.bind_some, phase]
      exact ⟨_, loop.watch, .head done (.refl _), rfl, rfl, List.getElem?_set_self bound⟩
  | cons functor functors ih =>
      obtain ⟨watch, ran, inv'⟩ := callFunctor_inv registers inv at_l phase
      have called_step : (machine P).step s (.callFunctor l) = some (s.setLoop l
          ⟨watch, loop.pendingFunctors, .calling (called ++ [functor]) functors⟩) := by
        simp only [machine, step, at_l, Option.bind_eq_bind, Option.bind_some, phase]
        exact ran
      obtain ⟨t, watch', leads, entities, map, at_t⟩ := ih inv' (List.getElem?_set_self bound) rfl
        (by rwa [State.setLoop, List.length_set])
      exact ⟨t, watch', .head called_step leads, entities, map, at_t⟩

/-- A loop gets to its next poll, with nothing left in its queue. -/
theorem drain (registers : P.Registers Known) (inv : StateInv P Known s)
    (at_l : s.loops[l]? = some loop) (running : loop.phase ≠ .exited) :
    ∃ t watch, (machine P).Leads s t ∧ t.entities = s.entities ∧
      t.comEntities = s.comEntities ∧ t.loops[l]? = some ⟨watch, [], .polling⟩ := by
  have from_polling : ∀ (u : State σ) watch pendingFunctors, StateInv P Known u →
      u.loops[l]? = some ⟨watch, pendingFunctors, .polling⟩ →
      ∃ t watch, (machine P).Leads u t ∧ t.entities = u.entities ∧
        t.comEntities = u.comEntities ∧ t.loops[l]? = some ⟨watch, [], .polling⟩ := by
    intro u watch pendingFunctors inv at_u
    have bound := (List.getElem?_eq_some_iff.mp at_u).1
    have swapped : (machine P).step u (.doPendingFunctors l) =
        some (u.setLoop l ⟨watch, [], .calling [] pendingFunctors⟩) := by
      simp only [machine, step, at_u, Option.bind_eq_bind, Option.bind_some, if_true]
    obtain ⟨t, watch', leads, entities, map, at_t⟩ := finish_batch registers pendingFunctors
      (step_inv registers inv swapped) (List.getElem?_set_self bound) rfl
    exact ⟨t, watch', .head swapped leads, entities, map, at_t⟩
  have bound := (List.getElem?_eq_some_iff.mp at_l).1
  cases phase : loop.phase with
  | polling =>
      apply from_polling s loop.watch loop.pendingFunctors inv
      rw [at_l, ← phase]
  | handling com =>
      have handled : (machine P).step s (.handled l) =
          some (s.setLoop l { loop with phase := .polling }) := by
        simp only [machine, step, at_l, Option.bind_eq_bind, Option.bind_some, phase]
      obtain ⟨t, watch, leads, rest⟩ := from_polling _ _ _ (step_inv registers inv handled)
        (List.getElem?_set_self bound)
      exact ⟨t, watch, .head handled leads, rest⟩
  | calling called functors =>
      obtain ⟨u, watch, leads, entities, map, at_u⟩ :=
        finish_batch registers functors inv at_l phase
      have inv' : StateInv P Known u :=
        leads.invariant inv fun _ _ _ inv step => step_inv registers inv step
      obtain ⟨t, watch', leads', entities', map', at_t⟩ := from_polling _ _ _ inv' at_u
      exact ⟨t, watch', leads.trans leads', entities'.trans entities, map'.trans map, at_t⟩
  | exited => exact absurd phase running

/-- The destructor gets to the end of the map. -/
theorem reset_all (inv : StateInv P Known s) (destroying : s.server = .destroying) :
    ∃ t, (machine P).Leads s t ∧ t.entities = s.entities ∧ t.comEntities = [] ∧
      t.server = .destroying := by
  induction entries : s.comEntities generalizing s with
  | nil => exact ⟨s, .refl s, rfl, entries, destroying⟩
  | cons head rest ih =>
      obtain ⟨u, ran, inv', entities, map, still⟩ := destroyNext_inv inv destroying
      have step : (machine P).step s .destroyNext = some u := (if_pos destroying).trans ran
      rw [entries] at map still
      obtain ⟨t, leads, entities', rest⟩ := ih inv' (still nofun) map
      exact ⟨t, .head step leads, entities'.trans entities, rest⟩

end Destruction

/-- **Destroying a server that has an entity** leads to a channel whose entity is gone. -/
theorem dangles_after_destruction {s : State σ} (registers : P.Registers Known)
    (reach : (machine P).Reachable s) (alive : s.server = .alive)
    (some_entity : s.comEntities ≠ []) :
    ∃ u, (machine P).step s .destroy = some u ∧
      ∃ t, (machine P).Leads u t ∧ ¬ NoDangling P t := by
  have destroy : (machine P).step s .destroy = some { s with server := .destroying } :=
    if_pos alive
  refine ⟨_, destroy, ?_⟩
  obtain ⟨com, mem⟩ : ∃ com, com ∈ s.comEntities.map Prod.snd := by
    obtain ⟨entry, mem⟩ := List.exists_mem_of_ne_nil _ some_entity
    exact ⟨_, List.mem_map_of_mem mem⟩
  have bound := (reachable_inv registers reach).mapped com mem
  have at_com : s.entities[com]? = some s.entities[com] := List.getElem?_eq_getElem bound
  obtain ⟨v, to_v, entities, map, destroying⟩ := reset_all (P := P)
    (s := { s with server := .destroying }) (reachable_inv registers (reach.tail destroy)) rfl
  have reach_v : (machine P).Reachable v := (reach.tail destroy).trans to_v
  have at_v : v.entities[com]? = some s.entities[com] :=
    (congrArg (·[com]?) entities).trans at_com
  obtain ⟨loop, at_l, -⟩ := (reachable_inv registers reach_v).base.settled at_v
  have running : loop.phase ≠ .exited :=
    reachable_running reach_v (by rw [destroying]; nofun) loop (List.mem_of_getElem? at_l)
  obtain ⟨t, watch, to_t, entities', map', at_t⟩ :=
    drain registers (reachable_inv registers reach_v) at_l running
  refine ⟨t, to_v.trans to_t, fun no_dangling => ?_⟩
  have inv := reachable_inv registers (reach_v.trans to_t)
  have at_com_t : t.entities[com]? = some s.entities[com] :=
    (congrArg (·[com]?) entities').trans at_v
  -- The loop has registered the channel, and neither it nor any other pointer owns the entity.
  obtain ⟨loop', at_t', settled⟩ := inv.base.settled at_com_t
  cases at_t.symm.trans at_t'
  have known : P.knows watch.poller s.entities[com].fd = true :=
    (settled.resolve_left nofun).resolve_right nofun
  obtain ⟨c, at_c, held⟩ := no_dangling _ _ _ at_t known
  obtain rfl := eq_of_same_fd inv.base.distinct at_c at_com_t rfl
  rcases held with in_map | ⟨owner, mem_owner, holds⟩
  · rw [map', map] at in_map
    cases in_map
  · obtain ⟨j, at_j⟩ := List.mem_iff_getElem?.mp mem_owner
    obtain ⟨fd, at_c'⟩ := (inv.base.loop at_j).own c holds
    cases at_c.symm.trans at_c'
    cases at_t.symm.trans at_j
    rcases holds with queued | handling
    · cases queued
    · cases handling

end Dbdky.ComServer

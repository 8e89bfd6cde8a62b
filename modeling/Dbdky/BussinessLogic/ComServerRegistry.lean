import Dbdky.BussinessLogic.ComEntity
import Dbdky.BussinessLogic.ComServerChannels
import Dbdky.BussinessLogic.ComUtil

/-!
The registry of a `ComServer`: calls of `createComEntityAndInsert` with any arguments and
any outcome of opening the port, in a build with assertions.

The loops, the map and the pollers are those of `ComServer`. Here each entity also has its
`ComUtil` and its state, and a failed assertion ends the program. What loops do with events
does not touch the registry and is left out.

* **`create_eq`.** If the port opens, a call does to the server what it does in
  `ComServer`.
* **`registry_iff`.** The registry is right all along a run exactly if every call that is
  the first for its name asks for `/dev/ttyS0` with 9600 baud, 8 data bits and no parity,
  and the port opens.
-/

namespace Dbdky

open Transition

namespace ComServer.Registry

open Port (Poller)

/-- The arguments of `createComEntityAndInsert`. -/
structure Request where
  entityName : String
  dataBits : UInt8
  baudRate : UInt64
  parity : ComUtil.EMBParity
deriving DecidableEq, Repr

/-- A `ComEntity`: its `comutil_` and `state_`. -/
structure Com where
  comutil : ComUtil
  state : Dbdky.ComEntity.ComState
deriving DecidableEq, Repr

namespace Com

/-- The constructor. -/
def new (answers : ComUtil.Answers) (portName : String) (dataBits : UInt8) (baudRate : UInt64)
    (parity : ComUtil.EMBParity) (sys : ComUtil.System) : Com × ComUtil.System :=
  let (comutil, sys) := ComUtil.new answers portName baudRate dataBits parity sys
  (⟨comutil, if comutil.comFd ≥ 0 then .kOpened else .kError⟩, sys)

/-- The fd of the channel. If the port could not be opened there is none, and what stands for
it here is not used, because the assertion in `comEstablished` comes first. -/
def fd (com : Com) : Nat := com.comutil.comFd.toNat

/-- What the entity is configured with. -/
def request (com : Com) : Request :=
  ⟨com.comutil.portName, com.comutil.dataBits, com.comutil.baudRate, com.comutil.eParity⟩

end Com

variable {σ : Type}

structure State (σ : Type) where
  server : ComServer.State σ
  /-- The entities, by the same positions as in `server`. -/
  coms : List Com
  sys : ComUtil.System
  /-- History: the calls. -/
  requests : List Request
  aborted : Bool

def State.new (P : Poller σ) : State σ :=
  ⟨⟨[.new P], 0, false, 1, [], [], .alive⟩, [], ⟨[], [], .zero, .zero⟩, [], false⟩

/-! ### The functions -/

def comEstablished (P : Poller σ) (com : Nat) (s : State σ) : Option (State σ) := do
  let entity ← s.coms[com]?
  guard (entity.state = .kOpened)
  let server ← ComServer.comEstablished P com s.server
  some { s with server }

def call (P : Poller σ) : Functor → State σ → Option (State σ)
  | .comEstablished com, s => comEstablished P com s
  | .comDestroyed _, s => some s

def runInLoop (P : Poller σ) (l : Nat) (functor : Functor) (s : State σ) : Option (State σ) :=
  if l = 0 then call P functor s
  else do
    let server ← queueInLoop l functor s.server
    some { s with server }

def createComEntityAndInsert (P : Poller σ) (request : Request) (answers : ComUtil.Answers)
    (s : State σ) : Option (State σ) :=
  if (s.server.comEntities.lookup request.entityName).isSome then some s
  else
    let (ioLoop, next) := getNextLoop s.server
    let (comEntity0, sys) := Com.new answers "/dev/ttyS0" 8 9600 .MB_PAR_NONE s.sys
    runInLoop P ioLoop (.comEstablished s.server.entities.length) { s with
      server := { s.server with
        next
        nextEntityId := s.server.nextEntityId + 1
        entities := s.server.entities ++ [⟨ioLoop, comEntity0.fd⟩]
        comEntities := s.server.comEntities.orderedInsert (fun a b => a.1 ≤ b.1)
          (request.entityName, s.server.entities.length) }
      coms := s.coms ++ [comEntity0]
      sys }

/-! ### The steps -/

inductive Label where
  | start (numThreads : Nat)
  | create (request : Request) (answers : ComUtil.Answers)
  | doPendingFunctors (l : Nat)
  | callFunctor (l : Nat)
  | functorsDone (l : Nat)
deriving DecidableEq, Repr

def State.asked (s : State σ) (request : Request) : State σ :=
  { s with requests := s.requests ++ [request] }

/-- An operation that fails has aborted. -/
def State.after (s : State σ) (result : Option (State σ)) : State σ :=
  result.getD { s with aborted := true }

/-- `open` does not return a descriptor that is open. -/
def step (P : Poller σ) (s : State σ) (label : Label) : Option (State σ) :=
  if s.aborted then none
  else
    match label with
    | .start numThreads => some { s with server := ComServer.start P numThreads s.server }
    | .create request answers =>
        if answers.opened ∉ s.sys.descriptors then
          let s := s.asked request
          some (s.after (createComEntityAndInsert P request answers s))
        else none
    | .doPendingFunctors l => do
        let server ← ComServer.step P s.server (.doPendingFunctors l)
        some { s with server }
    | .callFunctor l => do
        let loop ← s.server.loops[l]?
        match loop.phase with
        | .calling called (functor :: functors) =>
            let s := { s with
              server := s.server.setLoop l
                { loop with phase := .calling (called ++ [functor]) functors } }
            some (s.after (call P functor s))
        | _ => none
    | .functorsDone l => do
        let server ← ComServer.step P s.server (.functorsDone l)
        some { s with server }

def machine (P : Poller σ) : Machine (State σ) Label where
  init s := s = .new P
  step := step P

/-! ### A registry that is right -/

/-- Each name that has been asked for has one entity, which is as the first call wanted it. -/
structure Right (s : State σ) : Prop where
  no_abort : s.aborted = false
  /-- No `comEstablished` that has run or will run fails its assertion. -/
  opened : ∀ com ∈ s.coms, com.state = .kOpened
  one : (s.server.comEntities.map Prod.fst).Nodup
  own : (s.server.comEntities.map Prod.snd).Nodup
  all : ∀ name, name ∈ s.server.comEntities.map Prod.fst ↔
    name ∈ s.requests.map Request.entityName
  configured : ∀ name com, (name, com) ∈ s.server.comEntities →
    s.coms[com]?.map Com.request = s.requests.find? fun request => request.entityName = name

/-- The first call for a name asks for what `createComEntityAndInsert` creates, and the port
opens. -/
def Matching (s : State σ) : Label → Prop
  | .create request answers =>
      request.entityName ∈ s.requests.map Request.entityName ∨
        request = ⟨"/dev/ttyS0", 8, 9600, .MB_PAR_NONE⟩ ∧ 0 ≤ answers.opened ∧
          answers.tcgetattr = 0
  | _ => True

instance (s : State σ) (label : Label) : Decidable (Matching s label) :=
  match label with
  | .create _ _ => inferInstanceAs (Decidable (_ ∨ _ ∧ _ ∧ _))
  | .start _ | .doPendingFunctors _ | .callFunctor _ | .functorsDone _ => isTrue trivial

/-! ### The entity of a call -/

section Create

variable {P : Poller σ} {Known : σ → Prop} {s t : State σ} {l : Nat} {request : Request}
  {answers : ComUtil.Answers}

theorem Com.request_new (answers : ComUtil.Answers) (request : Request) (sys : ComUtil.System) :
    (Com.new answers request.entityName request.dataBits request.baudRate request.parity
      sys).1.request = request := by
  unfold Com.new ComUtil.new
  dsimp only
  split <;> rfl

theorem Com.new_of_opened (opened : 0 ≤ answers.opened) (got_settings : answers.tcgetattr = 0)
    (sys : ComUtil.System) :
    ∃ com sys', Com.new answers "/dev/ttyS0" 8 9600 .MB_PAR_NONE sys = (com, sys') ∧
      com.state = .kOpened ∧ com.comutil.comFd = answers.opened ∧
      sys'.descriptors = answers.opened :: sys.descriptors := by
  obtain ⟨sys', created, descriptors, -⟩ := ComUtil.new_of_supported "/dev/ttyS0" sys
    (Int.not_lt.mpr opened) (not_not.mpr got_settings)
    (show ComUtil.Supported 9600 8 .MB_PAR_NONE by decide)
  refine ⟨_, sys', by rw [Com.new, created], ?_, rfl, descriptors⟩
  exact if_pos opened

theorem Com.new_of_not_opened (not_opened : ¬ (0 ≤ answers.opened ∧ answers.tcgetattr = 0))
    (sys : ComUtil.System) :
    (Com.new answers "/dev/ttyS0" 8 9600 .MB_PAR_NONE sys).1.state = .kError := by
  by_cases opened : answers.opened < 0
  · rw [Com.new, ComUtil.new_of_not_opened _ _ opened]
    rfl
  · have no_settings : answers.tcgetattr ≠ 0 :=
      fun got => not_opened ⟨Int.not_lt.mp opened, got⟩
    rw [Com.new, ComUtil.new_of_no_settings _ _ opened no_settings]
    rfl

/-! ### What the functions do to the server -/

theorem call_eq {functor : Functor} {com : Com} (at_com : s.coms[functor.com]? = some com)
    (opened : com.state = .kOpened) :
    call P functor s = (functor.call P s.server).map fun server => { s with server } := by
  cases functor with
  | comEstablished c =>
      have at_com : s.coms[c]? = some com := at_com
      rw [call, comEstablished, at_com, Functor.call, Option.bind_eq_bind, Option.bind_some, guard,
        if_pos opened]
      exact Option.map_eq_bind.symm
  | comDestroyed c => rfl

theorem runInLoop_eq {functor : Functor} {com : Com} (at_com : s.coms[functor.com]? = some com)
    (opened : com.state = .kOpened) :
    runInLoop P l functor s =
      (ComServer.runInLoop P l functor s.server).map fun server => { s with server } := by
  rw [runInLoop, ComServer.runInLoop]
  split
  · exact call_eq at_com opened
  · exact Option.map_eq_bind.symm

theorem call_server {functor : Functor} (ran : call P functor s = some t) :
    ∃ server, functor.call P s.server = some server ∧ t = { s with server } := by
  cases functor with
  | comEstablished com =>
      obtain ⟨entity, -, ran⟩ := Option.bind_eq_some_iff.mp ran
      obtain ⟨-, -, ran⟩ := Option.bind_eq_some_iff.mp ran
      obtain ⟨server, established, ⟨⟩⟩ := Option.bind_eq_some_iff.mp ran
      exact ⟨server, established, rfl⟩
  | comDestroyed com =>
      cases ran
      exact ⟨s.server, rfl, rfl⟩

theorem runInLoop_server {functor : Functor} (ran : runInLoop P l functor s = some t) :
    ∃ server, ComServer.runInLoop P l functor s.server = some server ∧ t = { s with server } := by
  rw [runInLoop] at ran
  rw [ComServer.runInLoop]
  split at ran
  case isTrue base =>
    rw [if_pos base]
    exact call_server ran
  case isFalse other =>
    obtain ⟨server, queued, ⟨⟩⟩ := Option.bind_eq_some_iff.mp ran
    rw [if_neg other]
    exact ⟨server, queued, rfl⟩

/-- **If the port opens, a call does to the server what it does in `ComServer`.** -/
theorem create_eq {com : Com} {sys : ComUtil.System}
    (absent : ¬ (s.server.comEntities.lookup request.entityName).isSome)
    (lengths : s.coms.length = s.server.entities.length)
    (created : Com.new answers "/dev/ttyS0" 8 9600 .MB_PAR_NONE s.sys = (com, sys))
    (opened : com.state = .kOpened) :
    createComEntityAndInsert P request answers s =
      (ComServer.createComEntityAndInsert P request.entityName com.fd s.server).map
        fun server => { s with server, coms := s.coms ++ [com], sys } := by
  rw [createComEntityAndInsert, if_neg absent, ComServer.createComEntityAndInsert, if_neg absent,
    created]
  dsimp only
  refine runInLoop_eq (?_ : _ = some com) opened
  change (s.coms ++ [com])[s.server.entities.length]? = some com
  rw [← lengths]
  exact List.getElem?_concat_length

/-- Whether the port opens or not, the new entity is in the map. -/
theorem create_frame {com : Com} {sys : ComUtil.System}
    (absent : ¬ (s.server.comEntities.lookup request.entityName).isSome)
    (created : Com.new answers "/dev/ttyS0" 8 9600 .MB_PAR_NONE s.sys = (com, sys))
    (ran : createComEntityAndInsert P request answers s = some t) :
    t.coms = s.coms ++ [com] ∧ t.requests = s.requests ∧
      t.server.comEntities = s.server.comEntities.orderedInsert (fun a b => a.1 ≤ b.1)
        (request.entityName, s.server.entities.length) := by
  rw [createComEntityAndInsert, if_neg absent, created] at ran
  obtain ⟨server, ran_server, rfl⟩ := runInLoop_server ran
  exact ⟨rfl, rfl, (runInLoop_turned ran_server).comEntities⟩

/-! ### A call that opens its port -/

/-- `getNextLoop` finds a loop. -/
structure NextValid (server : ComServer.State σ) : Prop where
  base : 0 < server.loops.length
  next : server.next = 0 ∨ server.next + 1 < server.loops.length

theorem NextValid.getNextLoop {server : ComServer.State σ} (valid : NextValid server) :
    (getNextLoop server).1 < server.loops.length ∧
      ((ComServer.getNextLoop server).2 = 0 ∨
        (ComServer.getNextLoop server).2 + 1 < server.loops.length) := by
  obtain ⟨base, next⟩ := valid
  rw [ComServer.getNextLoop]
  dsimp only
  split
  · exact ⟨base, next⟩
  · split
    · exact ⟨by omega, .inl rfl⟩
    · exact ⟨by omega, .inr (by omega)⟩

theorem runInLoop_loops {server server' : ComServer.State σ} {functor : Functor}
    (ran : ComServer.runInLoop P l functor server = some server') :
    server'.loops.length = server.loops.length ∧ server'.next = server.next := by
  rcases runInLoop_touched ran with rfl | ⟨l, loop, loop', -, rfl, -⟩
  · exact ⟨rfl, rfl⟩
  · exact ⟨List.length_set, rfl⟩

/-- A channel with a new fd can be established, at once or later. -/
theorem create_server {server : ComServer.State σ} {entityName : String} {fd : Port.Fd}
    (registers : P.Registers Known) (inv : StateInv P Known server) (valid : NextValid server)
    (absent : ¬ (server.comEntities.lookup entityName).isSome)
    (new : fd ∉ server.entities.map ComEntity.fd) :
    ∃ server', ComServer.createComEntityAndInsert P entityName fd server = some server' ∧
      StateInv P Known server' ∧ NextValid server' ∧ server'.server = server.server ∧
      server'.entities.map ComEntity.fd = server.entities.map ComEntity.fd ++ [fd] ∧
      server'.comEntities = server.comEntities.orderedInsert (fun a b => a.1 ≤ b.1)
        (entityName, server.entities.length) := by
  obtain ⟨bound, next⟩ := valid.getNextLoop
  have ran : ∃ server', ComServer.createComEntityAndInsert P entityName fd server =
      some server' := by
    rw [ComServer.createComEntityAndInsert, if_neg absent]
    have at_l := List.getElem?_eq_getElem bound
    dsimp only
    rw [ComServer.runInLoop]
    split
    · have loopInv := inv.base.loop at_l
      have unknown : P.knows server.loops[(ComServer.getNextLoop server).1].watch.poller fd =
          false := by
        rw [← Bool.not_eq_true]
        exact fun known => new (List.mem_map_of_mem (f := ComEntity.fd) (loopInv.known fd known))
      obtain ⟨watch, established, -⟩ := comEstablished_eq (s := { server with
        next := (ComServer.getNextLoop server).2
        nextEntityId := server.nextEntityId + 1
        entities := server.entities ++ [⟨(ComServer.getNextLoop server).1, fd⟩]
        comEntities := server.comEntities.orderedInsert (fun a b => a.1 ≤ b.1)
          (entityName, server.entities.length) }) registers List.getElem?_concat_length at_l
        loopInv.poller (loopInv.fresh fd unknown) unknown
      exact ⟨_, established⟩
    · rw [queueInLoop, at_l]
      exact ⟨_, rfl⟩
  obtain ⟨server', ran⟩ := ran
  have inv' := create_inv registers inv new ran
  rw [ComServer.createComEntityAndInsert, if_neg absent] at ran
  have turned := runInLoop_turned ran
  obtain ⟨loops, next'⟩ := runInLoop_loops ran
  refine ⟨server', ?_, inv', ⟨?_, ?_⟩, turned.server, ?_, turned.comEntities⟩
  · rw [ComServer.createComEntityAndInsert, if_neg absent]
    exact ran
  · rw [loops]
    exact valid.base
  · rw [loops, next']
    exact next
  · rw [turned.entities, List.map_append, List.map_singleton]

/-! ### The map and the calls -/

/-- A call for a name that has been asked for leaves what was first asked for. -/
theorem find_append_of_mem {requests : List Request} {name : String}
    (mem : name ∈ requests.map Request.entityName) (request : Request) :
    (requests ++ [request]).find? (fun request => request.entityName = name) =
      requests.find? fun request => request.entityName = name := by
  obtain ⟨first, first_mem, same⟩ := List.mem_map.mp mem
  have found : (requests.find? fun request => request.entityName = name).isSome := by
    rw [List.find?_isSome]
    exact ⟨first, first_mem, decide_eq_true same⟩
  rw [List.find?_append, Option.or_of_isSome found]

theorem find_append_of_notMem {requests : List Request} {request : Request}
    (absent : request.entityName ∉ requests.map Request.entityName) :
    (requests ++ [request]).find? (fun r => r.entityName = request.entityName) =
      some request := by
  have missing : (requests.find? fun r => r.entityName = request.entityName) = none := by
    rw [List.find?_eq_none]
    intro r mem same
    exact absent (List.mem_map.mpr ⟨r, mem, of_decide_eq_true same⟩)
  rw [List.find?_append, missing, Option.none_or, List.find?_singleton, decide_eq_true rfl,
    if_pos rfl]

/-- A further call for a name changes nothing. -/
theorem Right.again (right : Right s)
    (known : request.entityName ∈ s.requests.map Request.entityName) :
    Right (s.asked request) where
  no_abort := right.no_abort
  opened := right.opened
  one := right.one
  own := right.own
  all name := by
    rw [State.asked, List.map_append, List.map_singleton, List.mem_append, List.mem_singleton,
      ← right.all]
    constructor
    · exact .inl
    · rintro (old | rfl)
      · exact old
      · exact (right.all _).mpr known
  configured name com mem := by
    have asked : name ∈ s.requests.map Request.entityName :=
      (right.all name).mp (List.mem_map_of_mem (f := Prod.fst) mem)
    rw [State.asked, find_append_of_mem asked]
    exact right.configured name com mem

/-- An entity that is as the first call wanted it. -/
theorem Right.create (right : Right s)
    (new : request.entityName ∉ s.requests.map Request.entityName)
    {com : Com} (as_asked : com.request = request) (opened : com.state = .kOpened)
    (bounds : ∀ c ∈ s.server.comEntities.map Prod.snd, c < s.coms.length)
    (coms : t.coms = s.coms ++ [com]) (requests : t.requests = s.requests ++ [request])
    (entries :
      t.server.comEntities.Perm ((request.entityName, s.coms.length) :: s.server.comEntities))
    (running : t.aborted = false) : Right t where
  no_abort := running
  opened c mem := by
    rw [coms, List.mem_append, List.mem_singleton] at mem
    rcases mem with old | rfl
    · exact right.opened c old
    · exact opened
  one := by
    rw [(entries.map Prod.fst).nodup_iff, List.map_cons, List.nodup_cons, right.all]
    exact ⟨new, right.one⟩
  own := by
    rw [(entries.map Prod.snd).nodup_iff, List.map_cons, List.nodup_cons]
    exact ⟨fun mem => Nat.lt_irrefl _ (bounds _ mem), right.own⟩
  all name := by
    rw [(entries.map Prod.fst).mem_iff, requests, List.map_cons, List.mem_cons, right.all,
      List.map_append, List.map_singleton, List.mem_append, List.mem_singleton]
    exact or_comm
  configured name c mem := by
    rw [entries.mem_iff, List.mem_cons] at mem
    rw [coms, requests]
    rcases mem with new_entry | old
    · cases new_entry
      rw [List.getElem?_concat_length, Option.map_some, as_asked, find_append_of_notMem new]
    · have bound := bounds c (List.mem_map_of_mem (f := Prod.snd) old)
      have asked : name ∈ s.requests.map Request.entityName :=
        (right.all name).mp (List.mem_map_of_mem (f := Prod.fst) old)
      rw [List.getElem?_append_left bound, find_append_of_mem asked]
      exact right.configured name c old

/-! ### The steps -/

/-- What holds while every step is matching. -/
structure Inv (P : Poller σ) (Known : σ → Prop) (s : State σ) : Prop where
  right : Right s
  server : StateInv P Known s.server
  alive : s.server.server = .alive
  next : NextValid s.server
  fds : s.server.entities.map ComEntity.fd = s.coms.map Com.fd
  descriptors : ∀ com ∈ s.coms, 0 ≤ com.comutil.comFd ∧ com.comutil.comFd ∈ s.sys.descriptors

theorem Inv.lengths (inv : Inv P Known s) : s.coms.length = s.server.entities.length := by
  have lengths := congrArg List.length inv.fds
  rw [List.length_map, List.length_map] at lengths
  exact lengths.symm

theorem Inv.running (inv : Inv P Known s) : ¬ s.aborted = true := by
  rw [inv.right.no_abort]
  decide

/-- The name of a call is in the map if and only if it has been asked for. -/
theorem Inv.lookup_iff (inv : Inv P Known s) (name : String) :
    (s.server.comEntities.lookup name).isSome ↔ name ∈ s.requests.map Request.entityName := by
  rw [← inv.right.all, List.lookup_isSome_iff, List.mem_map]
  constructor
  · rintro ⟨entry, mem, same⟩
    exact ⟨entry, mem, (eq_of_beq same).symm⟩
  · rintro ⟨entry, mem, same⟩
    exact ⟨entry, mem, beq_iff_eq.mpr same.symm⟩

theorem create_kept (registers : P.Registers Known) (inv : Inv P Known s)
    (free : answers.opened ∉ s.sys.descriptors) (matching : Matching s (.create request answers)) :
    Inv P Known ((s.asked request).after
      (createComEntityAndInsert P request answers (s.asked request))) := by
  by_cases known : request.entityName ∈ s.requests.map Request.entityName
  · have present : ((s.asked request).server.comEntities.lookup request.entityName).isSome :=
      (inv.lookup_iff _).mpr known
    rw [createComEntityAndInsert, if_pos present]
    exact ⟨inv.right.again known, inv.server, inv.alive, inv.next, inv.fds, inv.descriptors⟩
  obtain ⟨rfl, opened, got_settings⟩ := matching.resolve_left known
  have absent := mt (inv.lookup_iff "/dev/ttyS0").mp known
  obtain ⟨com, sys, created, state, fd, descriptors⟩ :=
    Com.new_of_opened opened got_settings s.sys
  have new : com.fd ∉ s.server.entities.map ComEntity.fd := by
    rw [inv.fds, List.mem_map]
    rintro ⟨other, mem, same⟩
    obtain ⟨valid, in_use⟩ := inv.descriptors other mem
    rw [Com.fd, Com.fd, fd] at same
    have same : other.comutil.comFd = answers.opened := by omega
    exact free (same ▸ in_use)
  obtain ⟨server, ran, inv', next, alive, fds, entries⟩ :=
    create_server registers inv.server inv.next absent new
  rw [create_eq (s := s.asked _) absent inv.lengths created state]
  change Inv P Known (State.after _ ((ComServer.createComEntityAndInsert P _ _ s.server).map _))
  rw [ran, Option.map_some, State.after, Option.getD_some]
  have as_asked : com.request = ⟨"/dev/ttyS0", 8, 9600, .MB_PAR_NONE⟩ := by
    have request := Com.request_new answers ⟨"/dev/ttyS0", 8, 9600, .MB_PAR_NONE⟩ s.sys
    rwa [created] at request
  refine ⟨inv.right.create known as_asked state ?_ rfl rfl ?_ inv.right.no_abort, inv',
    alive.trans inv.alive, next, ?_, ?_⟩
  · rw [inv.lengths]
    exact inv.server.mapped
  · rw [inv.lengths]
    change server.comEntities.Perm _
    rw [entries]
    exact List.perm_orderedInsert _ _ _
  · change server.entities.map ComEntity.fd = (s.coms ++ [com]).map Com.fd
    rw [fds, inv.fds, List.map_append, List.map_singleton]
  · intro c mem
    change _ ∧ c.comutil.comFd ∈ sys.descriptors
    rw [descriptors, List.mem_cons]
    rcases List.mem_append.mp mem with old | last
    · obtain ⟨valid, in_use⟩ := inv.descriptors c old
      exact ⟨valid, .inr in_use⟩
    · rw [List.mem_singleton.mp last, fd]
      exact ⟨opened, .inl rfl⟩

/-- A first call that does not ask for what is created, or whose port does not open, leaves a
registry that is not right. -/
theorem create_needed (inv : Inv P Known s)
    (right : Right ((s.asked request).after
      (createComEntityAndInsert P request answers (s.asked request)))) :
    Matching s (.create request answers) := by
  by_cases known : request.entityName ∈ s.requests.map Request.entityName
  · exact .inl known
  have absent := mt (inv.lookup_iff request.entityName).mp known
  refine .inr ?_
  cases ran : createComEntityAndInsert P request answers (s.asked request) with
  | none =>
      rw [ran] at right
      cases right.no_abort
  | some t =>
      rw [ran, State.after, Option.getD_some] at right
      obtain ⟨com, sys, created⟩ : ∃ com sys,
          Com.new answers "/dev/ttyS0" 8 9600 .MB_PAR_NONE s.sys = (com, sys) := ⟨_, _, rfl⟩
      obtain ⟨coms, requests, comEntities⟩ : t.coms = s.coms ++ [com] ∧
          t.requests = s.requests ++ [request] ∧ t.server.comEntities =
            s.server.comEntities.orderedInsert (fun a b => a.1 ≤ b.1)
              (request.entityName, s.server.entities.length) :=
        create_frame (s := s.asked request) absent created ran
      have state : com.state = .kOpened := by
        apply right.opened
        rw [coms]
        exact List.mem_append_right s.coms (List.mem_singleton_self com)
      have entry : (request.entityName, s.coms.length) ∈ t.server.comEntities := by
        rw [comEntities, List.mem_orderedInsert, inv.lengths]
        exact .inl rfl
      have configured := right.configured _ _ entry
      rw [coms, requests, List.getElem?_concat_length, Option.map_some,
        find_append_of_notMem known] at configured
      have as_created := Com.request_new answers ⟨"/dev/ttyS0", 8, 9600, .MB_PAR_NONE⟩ s.sys
      rw [created] at as_created
      refine ⟨(Option.some.inj configured).symm.trans as_created, ?_⟩
      by_contra not_opened
      have failed := Com.new_of_not_opened not_opened s.sys
      rw [created, state] at failed
      cases failed

/-- A step of a loop that changes nothing else. -/
theorem Inv.setLoop {loop : Loop σ} (inv : Inv P Known s)
    (server : StateInv P Known (s.server.setLoop l loop)) :
    Inv P Known { s with server := s.server.setLoop l loop } where
  right := ⟨inv.right.no_abort, inv.right.opened, inv.right.one, inv.right.own, inv.right.all,
    inv.right.configured⟩
  server := server
  alive := inv.alive
  next := by
    refine ⟨?_, ?_⟩ <;> rw [State.setLoop, List.length_set]
    · exact inv.next.base
    · exact inv.next.next
  fds := inv.fds
  descriptors := inv.descriptors

theorem start_kept (registers : P.Registers Known) (inv : Inv P Known s) (numThreads : Nat) :
    Inv P Known { s with server := ComServer.start P numThreads s.server } := by
  have server := start_inv registers inv.server numThreads
  rw [ComServer.start] at server ⊢
  split at server
  case isTrue started =>
    rw [if_pos started]
    exact inv
  case isFalse not_started =>
    rw [if_neg not_started]
    refine ⟨⟨inv.right.no_abort, inv.right.opened, inv.right.one, inv.right.own, inv.right.all,
      inv.right.configured⟩, server, inv.alive, ⟨?_, ?_⟩, inv.fds, inv.descriptors⟩
    all_goals
      have base := inv.next.base
      have next := inv.next.next
      dsimp only
      rw [List.length_append]
      omega

/-- The assertion of `comEstablished` holds. -/
theorem callFunctor_kept {loop : Loop σ} {called functors : List Functor} {functor : Functor}
    (registers : P.Registers Known) (inv : Inv P Known s) (at_l : s.server.loops[l]? = some loop)
    (phase : loop.phase = .calling called (functor :: functors)) :
    let s' := { s with
      server := s.server.setLoop l { loop with phase := .calling (called ++ [functor]) functors } }
    Inv P Known (s'.after (call P functor s')) := by
  intro s'
  have held : loop.Holds functor.com := by
    refine .inl (List.mem_map_of_mem ?_)
    rw [Loop.functors, phase]
    exact List.mem_append_left _ (List.mem_append_right _ (List.mem_cons_self ..))
  obtain ⟨fd, at_com⟩ := (inv.server.base.loop at_l).own _ held
  have bound : functor.com < s.coms.length := by
    rw [inv.lengths]
    exact (List.getElem?_eq_some_iff.mp at_com).1
  have opened := inv.right.opened _ (List.getElem_mem bound)
  obtain ⟨watch, ran, server⟩ := callFunctor_inv registers inv.server at_l phase
  have result := call_eq (s := s') (P := P) (List.getElem?_eq_getElem bound) opened
  change _ = (functor.call P (s.server.setLoop l _)).map _ at result
  rw [ran, Option.map_some] at result
  rw [result, State.after, Option.getD_some]
  exact inv.setLoop server

theorem step_kept {label : Label} (registers : P.Registers Known) (inv : Inv P Known s)
    (matching : Matching s label) (step : (machine P).step s label = some t) :
    Inv P Known t := by
  have step : Registry.step P s label = some t := step
  unfold Registry.step at step
  rw [if_neg inv.running] at step
  cases label with
  | start numThreads =>
      cases step
      exact start_kept registers inv numThreads
  | create request answers =>
      obtain ⟨free, ⟨⟩⟩ := Option.ite_none_right_eq_some.mp step
      exact create_kept registers inv free matching
  | callFunctor l =>
      obtain ⟨loop, at_l, step⟩ := Option.bind_eq_some_iff.mp step
      split at step
      · rename_i called functor functors phase
        cases step
        exact callFunctor_kept registers inv at_l phase
      · cases step
  | doPendingFunctors l =>
      obtain ⟨server, ran, ⟨⟩⟩ := Option.bind_eq_some_iff.mp step
      have moved : (ComServer.machine P).step s.server (.doPendingFunctors l) = some server := ran
      have server_inv := step_inv registers inv.server moved
      obtain ⟨loop, at_l, ran⟩ := Option.bind_eq_some_iff.mp ran
      obtain ⟨-, ⟨⟩⟩ := Option.ite_none_right_eq_some.mp ran
      exact inv.setLoop server_inv
  | functorsDone l =>
      obtain ⟨server, ran, ⟨⟩⟩ := Option.bind_eq_some_iff.mp step
      have moved : (ComServer.machine P).step s.server (.functorsDone l) = some server := ran
      have server_inv := step_inv registers inv.server moved
      obtain ⟨loop, at_l, ran⟩ := Option.bind_eq_some_iff.mp ran
      split at ran <;> cases ran
      exact inv.setLoop server_inv

/-- Only a call can spoil the registry. -/
theorem step_needed {label : Label} (inv : Inv P Known s)
    (step : (machine P).step s label = some t) (right : Right t) : Matching s label := by
  have step : Registry.step P s label = some t := step
  unfold Registry.step at step
  rw [if_neg inv.running] at step
  cases label with
  | create request answers =>
      obtain ⟨free, ⟨⟩⟩ := Option.ite_none_right_eq_some.mp step
      exact create_needed inv right
  | start _ | doPendingFunctors _ | callFunctor _ | functorsDone _ => exact trivial

theorem new_inv (registers : P.Registers Known) : Inv P Known (.new P) where
  right := ⟨rfl, nofun, List.nodup_nil, List.nodup_nil, fun _ => iff_of_false nofun nofun, nofun⟩
  server := reachable_inv registers (.of_init rfl)
  alive := rfl
  next := ⟨Nat.one_pos, .inl rfl⟩
  fds := rfl
  descriptors := nofun

theorem registry_iff_of_registers (registers : P.Registers Known) {labels : List Label}
    (run : (machine P).run (.new P) labels = some t) :
    (machine P).Keeps Right (.new P) labels ↔ (machine P).Meets Matching (.new P) labels :=
  Machine.keeps_iff_meets_of_invariant (fun _ inv => inv.right)
    (fun _ _ _ inv matching step => step_kept registers inv matching step)
    (fun _ _ _ inv step right => step_needed inv step right) (new_inv registers) run

end Create

/-- **The registry is right all along a run exactly if every first call for a name asks for what is
created, and the port opens**, with either poller. -/
theorem registry_iff (labels : List Label) :
    (∀ t, (machine (Port.EPollPoller.poller true)).run (.new (Port.EPollPoller.poller true))
        labels = some t →
      ((machine (Port.EPollPoller.poller true)).Keeps Right (.new (Port.EPollPoller.poller true))
          labels ↔
        (machine (Port.EPollPoller.poller true)).Meets Matching
          (.new (Port.EPollPoller.poller true)) labels)) ∧
    (∀ t, (machine (Port.PollPoller.poller true)).run (.new (Port.PollPoller.poller true)) labels =
        some t →
      ((machine (Port.PollPoller.poller true)).Keeps Right (.new (Port.PollPoller.poller true))
          labels ↔
        (machine (Port.PollPoller.poller true)).Meets Matching
          (.new (Port.PollPoller.poller true)) labels)) :=
  ⟨fun _ => registry_iff_of_registers (Port.EPollPoller.registers true),
    fun _ => registry_iff_of_registers (Port.PollPoller.registers true)⟩

/-- A port that opens. -/
def opens : ComUtil.Answers := ⟨5, 0, .zero, 0, 0, 0⟩

/-- One entity with the settings that are always taken, established in a pool thread. -/
theorem registry_right_one :
    ∃ labels t, (machine (Port.EPollPoller.poller true)).run (.new (Port.EPollPoller.poller true))
        labels = some t ∧ t.coms.length = 1 ∧
      (machine (Port.EPollPoller.poller true)).Keeps Right (.new (Port.EPollPoller.poller true))
        labels := by
  let labels : List Label := [.start 1, .create ⟨"/dev/ttyS0", 8, 9600, .MB_PAR_NONE⟩ opens,
    .doPendingFunctors 1, .callFunctor 1, .functorsDone 1]
  exact ⟨labels, _, rfl, rfl, ((registry_iff labels).1 _ rfl).mpr (by decide)⟩

/-- The call of the main service gets 9600 baud for 115200, and a port that cannot be opened ends
the program. -/
theorem registry_wrong :
    (∃ t, (machine (Port.EPollPoller.poller true)).run (.new (Port.EPollPoller.poller true))
        [.create ⟨"/dev/ttyS0", 8, 115200, .MB_PAR_NONE⟩ opens] = some t ∧
      t.coms.map Com.request = [⟨"/dev/ttyS0", 8, 9600, .MB_PAR_NONE⟩] ∧ ¬ Right t) ∧
    ∃ t, (machine (Port.EPollPoller.poller true)).run (.new (Port.EPollPoller.poller true))
        [.create ⟨"/dev/ttyS0", 8, 9600, .MB_PAR_NONE⟩ ⟨-1, 0, .zero, 0, 0, 0⟩] = some t ∧
      t.aborted = true := by
  constructor
  · refine ⟨_, rfl, rfl, fun right => ?_⟩
    have configured := right.configured "/dev/ttyS0" 0 (by decide)
    exact absurd configured (by decide)
  · exact ⟨_, rfl, rfl⟩

end ComServer.Registry

end Dbdky

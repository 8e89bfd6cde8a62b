import Mathlib.Tactic.Common

/-!
`ComEntity::ComUtil` (`src/bussiness_logic/ComEntity.{h,cpp}`): the constructor, which opens
a serial port and sets it up.

What the system calls return is an input. The bits of `struct termios` are those of Linux;
its control characters are cleared and not read, and are left out. `serialEnable` is empty.

* **`allOrNothing_iff`.** The open is all-or-nothing exactly if the port cannot be opened
  or read, or the settings are supported and every later call succeeds. Unsupported
  settings leak the descriptor, and a later call that fails is not reported.
-/

namespace Dbdky

namespace ComUtil

/-- `ComEntity::eMBParity` -/
inductive EMBParity where
  | MB_PAR_NONE
  | MB_PAR_ODD
  | MB_PAR_EVEN
  /-- The value 3, which is in the range of the enumeration and has no name. -/
  | unnamed
deriving DecidableEq, Repr

/-! ### `struct termios` -/

def IGNBRK : UInt32 := 0x1
def INPCK : UInt32 := 0x10
def CSIZE : UInt32 := 0x30
def CS6 : UInt32 := 0x10
def CS7 : UInt32 := 0x20
def CS8 : UInt32 := 0x30
def CREAD : UInt32 := 0x80
def PARENB : UInt32 := 0x100
def PARODD : UInt32 := 0x200
def CLOCAL : UInt32 := 0x800
def CBAUD : UInt32 := 0x100f
def B9600 : UInt32 := 0xd
def B19200 : UInt32 := 0xe
def B38400 : UInt32 := 0xf
def B57600 : UInt32 := 0x1001
def B115200 : UInt32 := 0x1002

structure Termios where
  cIflag : UInt32
  cOflag : UInt32
  cCflag : UInt32
  cLflag : UInt32
  cIspeed : UInt32
  cOspeed : UInt32
deriving DecidableEq, Repr

namespace Termios

/-- `bzero` -/
def zero : Termios := ⟨0, 0, 0, 0, 0, 0⟩

/-- A successful `cfsetispeed` to a speed other than `B0`. -/
def cfsetispeed (t : Termios) (speed : UInt32) : Termios :=
  { t with cIspeed := speed, cCflag := (t.cCflag &&& ~~~CBAUD) ||| speed }

/-- A successful `cfsetospeed`. -/
def cfsetospeed (t : Termios) (speed : UInt32) : Termios :=
  { t with cOspeed := speed, cCflag := (t.cCflag &&& ~~~CBAUD) ||| speed }

/-! What a terminal with these settings does. -/

def parity (t : Termios) : EMBParity :=
  if t.cCflag &&& PARENB = 0 then .MB_PAR_NONE
  else if t.cCflag &&& PARODD = 0 then .MB_PAR_EVEN
  else .MB_PAR_ODD

def characterSize (t : Termios) : UInt8 :=
  if t.cCflag &&& CSIZE = CS8 then 8
  else if t.cCflag &&& CSIZE = CS7 then 7
  else if t.cCflag &&& CSIZE = CS6 then 6
  else 5

/-- The five speeds that are used here. -/
def speed (t : Termios) : Option UInt64 :=
  let bits := t.cCflag &&& CBAUD
  if bits = B9600 then some 9600
  else if bits = B19200 then some 19200
  else if bits = B38400 then some 38400
  else if bits = B57600 then some 57600
  else if bits = B115200 then some 115200
  else none

end Termios

/-! ### The system -/

/-- What the calls return, and the settings that `tcgetattr` stores. -/
structure Answers where
  opened : Int
  tcgetattr : Int
  settings : Termios
  cfsetispeed : Int
  cfsetospeed : Int
  tcsetattr : Int
deriving DecidableEq, Repr

structure System where
  /-- The descriptors that are open, the newest first. -/
  descriptors : List Int
  /-- History: the settings that `tcsetattr` has applied. -/
  applied : List (Int × Termios)
  xNewTIO : Termios
  xOldTIO : Termios
deriving DecidableEq, Repr

end ComUtil

structure ComUtil where
  portName : String
  baudRate : UInt64
  dataBits : UInt8
  eParity : ComUtil.EMBParity
  comFd : Int
  bRxEnabled : Bool
  bTxEnabled : Bool
deriving DecidableEq, Repr

namespace ComUtil

/-! ### `serialInit` -/

/-- `switch (eParity_)`, where `none` is the default -/
def parityFlags : EMBParity → Option UInt32
  | .MB_PAR_NONE => some 0
  | .MB_PAR_EVEN => some PARENB
  | .MB_PAR_ODD => some (PARENB ||| PARODD)
  | .unnamed => none

/-- `switch (dataBits_)` -/
def dataFlags (dataBits : UInt8) : Option UInt32 :=
  if dataBits = 8 then some CS8
  else if dataBits = 7 then some CS7
  else none

/-- `switch (baudRate_)` -/
def newSpeed (baudRate : UInt64) : Option UInt32 :=
  if baudRate = 9600 then some B9600
  else if baudRate = 19200 then some B19200
  else if baudRate = 38400 then some B38400
  else if baudRate = 57600 then some B57600
  else if baudRate = 115200 then some B115200
  else none

/-- The flags are added, or `bStatus` is cleared. -/
def addFlags (flags : Option UInt32) (bStatus : Bool) (t : Termios) : Bool × Termios :=
  match flags with
  | some flags => (bStatus, { t with cCflag := t.cCflag ||| flags })
  | none => (false, t)

/-- The calls that follow if `bStatus` is still set. A failed one is only logged. -/
def applySettings (answers : Answers) (comFd : Int) (xNewSpeed : UInt32) (sys : System) :
    System :=
  if answers.cfsetispeed ≠ 0 then sys
  else
    let sys := { sys with xNewTIO := sys.xNewTIO.cfsetispeed xNewSpeed }
    if answers.cfsetospeed ≠ 0 then sys
    else
      let sys := { sys with xNewTIO := sys.xNewTIO.cfsetospeed xNewSpeed }
      if answers.tcsetattr ≠ 0 then sys
      else { sys with applied := sys.applied ++ [(comFd, sys.xNewTIO)] }

/-- `serialInit()`: what it returns, the new `comFd_` and the system. -/
def serialInit (answers : Answers) (u : ComUtil) (sys : System) : Bool × Int × System :=
  let comFd := answers.opened
  if comFd < 0 then (false, comFd, sys)
  else
    let sys := { sys with descriptors := comFd :: sys.descriptors }
    if answers.tcgetattr ≠ 0 then
      (false, comFd, { sys with descriptors := sys.descriptors.erase comFd })
    else
      let xNewTIO := { Termios.zero with cIflag := IGNBRK ||| INPCK, cCflag := CREAD ||| CLOCAL }
      let (bStatus, xNewTIO) := addFlags (parityFlags u.eParity) true xNewTIO
      let (bStatus, xNewTIO) := addFlags (dataFlags u.dataBits) bStatus xNewTIO
      let sys := { sys with xOldTIO := answers.settings, xNewTIO }
      match newSpeed u.baudRate, bStatus with
      | some xNewSpeed, true => (true, comFd, applySettings answers comFd xNewSpeed sys)
      | _, _ => (false, comFd, sys)

/-- The constructor. -/
def new (answers : Answers) (portName : String) (baudRate : UInt64) (dataBits : UInt8)
    (eParity : EMBParity) (sys : System) : ComUtil × System :=
  let u : ComUtil := ⟨portName, baudRate, dataBits, eParity, -1, false, false⟩
  let (ok, comFd, sys) := serialInit answers u sys
  if ok then ({ u with comFd }, sys) else ({ u with comFd := -1 }, sys)

/-! ### All or nothing -/

/-- The settings are as the `ComUtil` was asked for. -/
structure Requested (u : ComUtil) (t : Termios) : Prop where
  parity : t.parity = u.eParity
  characterSize : t.characterSize = u.dataBits
  speed : t.speed = some u.baudRate
  input_speed : newSpeed u.baudRate = some t.cIspeed
  output_speed : newSpeed u.baudRate = some t.cOspeed

/-- Every call succeeds. -/
structure Answers.Succeed (answers : Answers) : Prop where
  opened : 0 ≤ answers.opened
  tcgetattr : answers.tcgetattr = 0
  cfsetispeed : answers.cfsetispeed = 0
  cfsetospeed : answers.cfsetospeed = 0
  tcsetattr : answers.tcsetattr = 0

/-- What the constructor should have done. -/
structure AllOrNothing (answers : Answers) (sys : System) (u : ComUtil) (sys' : System) : Prop where
  all : 0 ≤ u.comFd → answers.Succeed ∧
    ∃ t, sys'.applied = sys.applied ++ [(u.comFd, t)] ∧ Requested u t
  nothing : u.comFd = -1 → sys'.descriptors = sys.descriptors

/-- The settings that `serialInit` knows. -/
def Supported (baudRate : UInt64) (dataBits : UInt8) (eParity : EMBParity) : Prop :=
  eParity ≠ .unnamed ∧ (dataBits = 7 ∨ dataBits = 8) ∧
    baudRate ∈ [9600, 19200, 38400, 57600, 115200]

instance (baudRate : UInt64) (dataBits : UInt8) (eParity : EMBParity) :
    Decidable (Supported baudRate dataBits eParity) :=
  inferInstanceAs (Decidable (_ ∧ (_ ∨ _) ∧ _))

theorem parityFlags_isSome_iff (eParity : EMBParity) :
    (parityFlags eParity).isSome ↔ eParity ≠ .unnamed := by
  cases eParity <;> decide

theorem dataFlags_isSome_iff (dataBits : UInt8) :
    (dataFlags dataBits).isSome ↔ dataBits = 7 ∨ dataBits = 8 := by
  unfold dataFlags
  split
  case isTrue eight => exact iff_of_true rfl (.inr eight)
  case isFalse not_eight =>
    split
    case isTrue seven => exact iff_of_true rfl (.inl seven)
    case isFalse not_seven => exact iff_of_false nofun (not_or.mpr ⟨not_seven, not_eight⟩)

theorem newSpeed_isSome_iff (baudRate : UInt64) :
    (newSpeed baudRate).isSome ↔ baudRate ∈ [9600, 19200, 38400, 57600, 115200] := by
  simp only [List.mem_cons, List.not_mem_nil, or_false]
  unfold newSpeed
  repeat' split
  all_goals simp_all

theorem supported_iff {baudRate : UInt64} {dataBits : UInt8} {eParity : EMBParity} :
    Supported baudRate dataBits eParity ↔
      (parityFlags eParity).isSome ∧ (dataFlags dataBits).isSome ∧ (newSpeed baudRate).isSome := by
  rw [Supported, parityFlags_isSome_iff, dataFlags_isSome_iff, newSpeed_isSome_iff]

/-- The settings with all flags set, and both speeds. -/
def settings (parity data speed : UInt32) : Termios :=
  let t := { Termios.zero with cIflag := IGNBRK ||| INPCK, cCflag := CREAD ||| CLOCAL }
  let t := { t with cCflag := t.cCflag ||| parity }
  let t := { t with cCflag := t.cCflag ||| data }
  (t.cfsetispeed speed).cfsetospeed speed

/-- The flags of the three switches do not disturb each other. -/
theorem requested_settings {u : ComUtil} {parity data speed : UInt32}
    (parity_flags : parityFlags u.eParity = some parity)
    (data_flags : dataFlags u.dataBits = some data)
    (new_speed : newSpeed u.baudRate = some speed) : Requested u (settings parity data speed) := by
  obtain ⟨portName, baudRate, dataBits, eParity, comFd, rx, tx⟩ := u
  have data_cases : dataBits = 7 ∨ dataBits = 8 :=
    (dataFlags_isSome_iff dataBits).mp (data_flags ▸ rfl)
  have speed_cases : baudRate ∈ [9600, 19200, 38400, 57600, 115200] :=
    (newSpeed_isSome_iff baudRate).mp (new_speed ▸ rfl)
  simp only [List.mem_cons, List.not_mem_nil, or_false] at speed_cases
  cases eParity <;> cases parity_flags <;> rcases data_cases with rfl | rfl <;> cases data_flags <;>
    rcases speed_cases with rfl | rfl | rfl | rfl | rfl <;> cases new_speed <;>
    exact ⟨rfl, rfl, rfl, rfl, rfl⟩

/-- The descriptors and the saved settings are left alone. -/
theorem applySettings_frame (answers : Answers) (comFd : Int) (xNewSpeed : UInt32)
    (sys : System) :
    (applySettings answers comFd xNewSpeed sys).descriptors = sys.descriptors ∧
      System.xOldTIO (applySettings answers comFd xNewSpeed sys) = sys.xOldTIO := by
  unfold applySettings
  repeat' split
  all_goals exact ⟨rfl, rfl⟩

section Constructor

variable {answers : Answers} (portName : String) {baudRate : UInt64} {dataBits : UInt8}
  {eParity : EMBParity} (sys : System)

theorem new_of_not_opened (not_opened : answers.opened < 0) :
    new answers portName baudRate dataBits eParity sys =
      (⟨portName, baudRate, dataBits, eParity, -1, false, false⟩, sys) := by
  simp only [new, serialInit, if_pos not_opened, Bool.false_eq_true, if_false]

section Opened

variable (opened : ¬ answers.opened < 0)
include opened

/-- The descriptor is closed again. -/
theorem new_of_no_settings (no_settings : answers.tcgetattr ≠ 0) :
    new answers portName baudRate dataBits eParity sys =
      (⟨portName, baudRate, dataBits, eParity, -1, false, false⟩, sys) := by
  simp only [new, serialInit, if_neg opened, if_pos no_settings, List.erase_cons_head,
    Bool.false_eq_true, if_false]

variable (got_settings : ¬ answers.tcgetattr ≠ 0)
include got_settings

/-- The descriptor is not closed, and forgotten. -/
theorem new_of_not_supported (not_supported : ¬ Supported baudRate dataBits eParity) :
    ∃ sys', new answers portName baudRate dataBits eParity sys =
        (⟨portName, baudRate, dataBits, eParity, -1, false, false⟩, sys') ∧
      sys'.descriptors = answers.opened :: sys.descriptors := by
  rw [supported_iff] at not_supported
  simp only [new, serialInit, if_neg opened, if_neg got_settings]
  cases parity_flags : parityFlags eParity with
  | none =>
      cases dataFlags dataBits <;> cases newSpeed baudRate <;> exact ⟨_, rfl, rfl⟩
  | some parity =>
      cases data_flags : dataFlags dataBits with
      | none => cases newSpeed baudRate <;> exact ⟨_, rfl, rfl⟩
      | some data =>
          cases new_speed : newSpeed baudRate with
          | none => exact ⟨_, rfl, rfl⟩
          | some speed =>
              rw [parity_flags, data_flags, new_speed] at not_supported
              exact absurd ⟨rfl, rfl, rfl⟩ not_supported

/-- The descriptor is kept, whatever becomes of the settings. -/
theorem new_of_supported (supported : Supported baudRate dataBits eParity) :
    ∃ sys', new answers portName baudRate dataBits eParity sys =
        (⟨portName, baudRate, dataBits, eParity, answers.opened, false, false⟩, sys') ∧
      sys'.descriptors = answers.opened :: sys.descriptors ∧
      (answers.cfsetispeed = 0 → answers.cfsetospeed = 0 → answers.tcsetattr = 0 →
        ∃ t, sys'.applied = sys.applied ++ [(answers.opened, t)] ∧
          Requested ⟨portName, baudRate, dataBits, eParity, answers.opened, false, false⟩ t) := by
  rw [supported_iff] at supported
  obtain ⟨known_parity, known_size, known_speed⟩ := supported
  obtain ⟨parity, parity_flags⟩ := Option.isSome_iff_exists.mp known_parity
  obtain ⟨data, data_flags⟩ := Option.isSome_iff_exists.mp known_size
  obtain ⟨speed, new_speed⟩ := Option.isSome_iff_exists.mp known_speed
  simp only [new, serialInit, if_neg opened, if_neg got_settings, parity_flags, data_flags,
    new_speed]
  refine ⟨_, rfl, (applySettings_frame ..).1, fun input output applies =>
    ⟨settings parity data speed, ?_, ?_⟩⟩
  · simp only [applySettings, addFlags, input, output, applies, ne_eq, not_true, if_false]
    rfl
  · exact requested_settings parity_flags data_flags new_speed

end Opened

theorem allOrNothing_of_closed {sys sys' : System} {u : ComUtil} (closed : u.comFd = -1) :
    AllOrNothing answers sys u sys' ↔ sys'.descriptors = sys.descriptors := by
  constructor
  · intro good
    exact good.nothing closed
  · intro same
    have never : ¬ 0 ≤ u.comFd := by
      rw [closed]
      decide
    exact ⟨fun kept => absurd kept never, fun _ => same⟩

/-- **The open of a port is all-or-nothing exactly if the port cannot be opened or read, or its
settings are supported and all calls succeed.** -/
theorem allOrNothing_iff (answers : Answers) (baudRate : UInt64) (dataBits : UInt8)
    (eParity : EMBParity) :
    AllOrNothing answers sys (new answers portName baudRate dataBits eParity sys).1
        (new answers portName baudRate dataBits eParity sys).2 ↔
      answers.opened < 0 ∨ answers.tcgetattr ≠ 0 ∨
        Supported baudRate dataBits eParity ∧ answers.cfsetispeed = 0 ∧
          answers.cfsetospeed = 0 ∧ answers.tcsetattr = 0 := by
  by_cases opened : answers.opened < 0
  · rw [new_of_not_opened portName sys opened, allOrNothing_of_closed rfl]
    exact iff_of_true rfl (.inl opened)
  by_cases no_settings : answers.tcgetattr ≠ 0
  · rw [new_of_no_settings portName sys opened no_settings, allOrNothing_of_closed rfl]
    exact iff_of_true rfl (.inr (.inl no_settings))
  rw [or_iff_right opened, or_iff_right no_settings]
  by_cases supported : Supported baudRate dataBits eParity
  · obtain ⟨sys', created, -, applies⟩ :=
      new_of_supported portName sys opened no_settings supported
    rw [created]
    constructor
    · rintro ⟨all, -⟩
      obtain ⟨succeed, -⟩ := all (Int.not_lt.mp opened)
      exact ⟨supported, succeed.cfsetispeed, succeed.cfsetospeed, succeed.tcsetattr⟩
    · rintro ⟨-, input, output, applied⟩
      have valid : answers.opened ≠ -1 := by omega
      exact ⟨fun _ => ⟨⟨Int.not_lt.mp opened, not_not.mp no_settings, input, output, applied⟩,
        applies input output applied⟩, fun closed => absurd closed valid⟩
  · obtain ⟨sys', created, leaked⟩ :=
      new_of_not_supported portName sys opened no_settings supported
    rw [created, allOrNothing_of_closed rfl, leaked]
    exact iff_of_false (List.cons_ne_self _ _) fun good => supported good.1

/-- The port opens as 5. Asked for 4800 baud, the constructor forgets it; with 9600 baud it keeps
it although `tcsetattr` fails. -/
theorem open_not_all_or_nothing :
    let start : System := ⟨[], [], .zero, .zero⟩
    (let answers : Answers := ⟨5, 0, .zero, 0, 0, 0⟩
      let created := new answers "/dev/ttyS1" 4800 8 .MB_PAR_NONE start
      ¬ AllOrNothing answers start created.1 created.2) ∧
    (let answers : Answers := ⟨5, 0, .zero, 0, 0, -1⟩
      let created := new answers "/dev/ttyS1" 9600 8 .MB_PAR_NONE start
      ¬ AllOrNothing answers start created.1 created.2) := by
  constructor
  · intro answers created good
    exact absurd (good.nothing rfl) (by decide)
  · intro answers created good
    exact absurd (good.all (by decide)).1.tcsetattr (by decide)

end Constructor

end ComUtil

end Dbdky

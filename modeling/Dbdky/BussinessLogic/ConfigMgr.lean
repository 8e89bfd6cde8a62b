import Mathlib.Algebra.Group.Int.Defs
import Mathlib.Algebra.Group.Nat.Defs
import Mathlib.Data.List.TakeWhile
import Mathlib.Logic.Function.Basic
import Mathlib.Tactic.Common

/-!
`ConfigMgr` (`src/bussiness_logic/ConfigMgr.{h,cpp}`): ports from a configuration file.

TinyXML turns the file into a tree of elements. A node pointer is an element with the
siblings behind it. The increments of the two loops evaluate `NextSibling` and drop the
result, so a loop that is entered stays at its node: `fuel` bounds the rounds, and a run
that is `none` at every `fuel` does not terminate.

* **`parseComConfig_applies_iff`.** The schema makes `ComConfig` the root, and the loop
  looks for it among the children of the root: a configuration that gives all that a port
  needs is ignored.
-/

namespace Dbdky

namespace ConfigMgr

/-! ### TinyXML -/

structure Element where
  value : String
  attributes : List (String × String)
  children : List Element

/-- `Attribute(name)` -/
def Element.attribute (element : Element) (name : String) : Option String :=
  element.attributes.lookup name

/-- The first of these siblings that has this value. -/
def firstNamed (value : String) (siblings : List Element) : List Element :=
  siblings.dropWhile fun element => element.value ≠ value

/-- `FirstChild(value)` -/
def Element.firstChild (element : Element) (value : String) : List Element :=
  firstNamed value element.children

/-! ### The C library -/

def isSpace (c : Char) : Bool := c = ' ' ∨ ('\t' ≤ c ∧ c ≤ '\r')

def LONG_MAX : Int := 2 ^ 63 - 1
def LONG_MIN : Int := -2 ^ 63

/-- `strtol(s, NULL, 10)` -/
def strtol (s : String) : Int :=
  let chars := s.toList.dropWhile isSpace
  let (negative, rest) := match chars with
    | '-' :: rest => (true, rest)
    | '+' :: rest => (false, rest)
    | rest => (false, rest)
  let magnitude : Nat := (rest.takeWhile Char.isDigit).foldl
    (fun n c => 10 * n + (c.toNat - '0'.toNat)) 0
  max LONG_MIN (min LONG_MAX (if negative then -magnitude else magnitude))

def atol (s : String) : Int := strtol s

/-- The value of `strtol`, converted to `int`. -/
def atoi (s : String) : Int := (strtol s).bmod (2 ^ 32)

/-! ### The ports -/

inductive EMBParity where
  | MB_PAR_NONE
  | MB_PAR_ODD
  | MB_PAR_EVEN
deriving DecidableEq, Repr

/-- The arguments of `ComEntity(NULL, ...)`. -/
structure ComEntity where
  portName : String
  dataBits : UInt8
  baudRate : UInt64
  parity : EMBParity
deriving DecidableEq, Repr

/-- `ComEntityMap` -/
abbrev ComEntityMap := String → Option ComEntity

/-- The strings that `parseComConfig` collects. -/
structure Locals where
  portName : String := ""
  baudRate : String := ""
  dataBits : String := ""
  stopBits : String := ""
  parity : String := ""
deriving DecidableEq, Repr

/-- The chain of comparisons with the name of an item. -/
def Locals.assign (l : Locals) (itemName itemValue : String) : Locals :=
  if "PortName" = itemName then { l with portName := itemValue }
  else if "BaudRate" = itemName then { l with baudRate := itemValue }
  else if "DataBits" = itemName then { l with dataBits := itemValue }
  else if "StopBits" = itemName then { l with stopBits := itemValue }
  else if "Parity" = itemName then { l with parity := itemValue }
  else l

/-- The body of the loop over the items. -/
def Locals.readItem (l : Locals) (itemElement : Element) : Locals :=
  match itemElement.attribute "name", itemElement.attribute "value" with
  | some itemName, some itemValue => l.assign itemName itemValue
  | _, _ => l

/-- Nothing is lacking. -/
def Locals.Sufficient (l : Locals) : Prop :=
  "" ≠ l.portName ∧ "" ≠ l.baudRate ∧ "" ≠ l.dataBits ∧ "" ≠ l.stopBits ∧ "" ≠ l.parity

instance (l : Locals) : Decidable l.Sufficient := inferInstanceAs (Decidable (_ ∧ _))

def Locals.comEntity (l : Locals) : ComEntity where
  portName := l.portName
  dataBits := UInt8.ofInt (atoi l.dataBits)
  baudRate := UInt64.ofInt (atol l.baudRate)
  parity :=
    match atoi l.parity with
    | 0 => .MB_PAR_NONE
    | 1 => .MB_PAR_ODD
    | 2 => .MB_PAR_EVEN
    | _ => .MB_PAR_NONE

/-! ### `parseComConfig` -/

/-- The loop over the items. -/
def itemLoop : Nat → List Element → Locals → Option Locals
  | 0, _, _ => none
  | _ + 1, [], l => some l
  | fuel + 1, subNode :: siblings, l =>
      -- `subNode->NextSibling("Item")` moves nothing
      itemLoop fuel (subNode :: siblings) (l.readItem subNode)

/-- The loop over the `ComConfig` nodes. Of the strings only `stopBits` lives outside. -/
def comConfigLoop : Nat → List Element → String → ComEntityMap → Option ComEntityMap
  | 0, _, _, _ => none
  | _ + 1, [], _, comEntityMap => some comEntityMap
  | fuel + 1, node :: siblings, stopBits, comEntityMap => do
      let l ← itemLoop fuel (node.firstChild "Item") { stopBits }
      if l.Sufficient then
        comConfigLoop fuel (node :: siblings) l.stopBits
          (Function.update comEntityMap l.portName (some l.comEntity))
      else comConfigLoop fuel (node :: siblings) l.stopBits comEntityMap

/-- `parseComConfig(refFileName)`; `loadFile` is what TinyXML makes of a file. -/
def parseComConfig (fuel : Nat) (globalConfigPath refFileName : String)
    (loadFile : String → Option Element) (comEntityMap : ComEntityMap) : Option ComEntityMap :=
  if globalConfigPath = "" then some comEntityMap
  else
    match loadFile (globalConfigPath ++ "/" ++ refFileName) with
    | none => some comEntityMap
    | some root => comConfigLoop fuel (root.firstChild "ComConfig") "" comEntityMap

/-! ### Documents of the schema -/

/-- A document that is valid against `ComConf.xsd`. The schema also wants an item. -/
structure SchemaValid (root : Element) : Prop where
  rootValue : root.value = "ComConfig"
  rootAttributes : (root.attributes.map Prod.fst).Nodup ∧
    ∀ a ∈ root.attributes, a.1 = "name" ∨ a.1 = "desc"
  items : ∀ item ∈ root.children, item.value = "Item" ∧ item.children = [] ∧
    (item.attributes.map Prod.fst).Nodup ∧ ∀ a ∈ item.attributes, a.1 = "name" ∨ a.1 = "value"

/-- The value that an item gives to a name. -/
def Element.valueFor (item : Element) (name : String) : Option String := do
  let itemName ← item.attribute "name"
  let itemValue ← item.attribute "value"
  if itemName = name then some itemValue else none

/-- The last value that is given to a name. -/
def lastValue (items : List Element) (name : String) : Option String :=
  (items.filterMap fun item => item.valueFor name).getLast?

/-- What these items set, from `l` on. -/
def Locals.override (l : Locals) (items : List Element) : Locals where
  portName := (lastValue items "PortName").getD l.portName
  baudRate := (lastValue items "BaudRate").getD l.baudRate
  dataBits := (lastValue items "DataBits").getD l.dataBits
  stopBits := (lastValue items "StopBits").getD l.stopBits
  parity := (lastValue items "Parity").getD l.parity

theorem lastValue_cons (item : Element) (items : List Element) (name default : String) :
    (lastValue (item :: items) name).getD default =
      (lastValue items name).getD ((item.valueFor name).getD default) := by
  unfold lastValue
  rw [List.filterMap_cons]
  cases item.valueFor name with
  | none => rfl
  | some value =>
      dsimp only
      rw [List.getLast?_cons, Option.getD_some, Option.getD_some]

/-- An item sets the string of its name. -/
theorem readItem_eq (l : Locals) (item : Element) :
    l.readItem item =
      { portName := (item.valueFor "PortName").getD l.portName
        baudRate := (item.valueFor "BaudRate").getD l.baudRate
        dataBits := (item.valueFor "DataBits").getD l.dataBits
        stopBits := (item.valueFor "StopBits").getD l.stopBits
        parity := (item.valueFor "Parity").getD l.parity } := by
  unfold Locals.readItem Element.valueFor
  cases item.attribute "name" with
  | none => rfl
  | some itemName =>
      cases item.attribute "value" with
      | none => rfl
      | some itemValue =>
          dsimp only [Option.bind_eq_bind, Option.bind_some]
          unfold Locals.assign
          split
          · subst itemName
            rfl
          split
          · subst itemName
            rfl
          split
          · subst itemName
            rfl
          split
          · subst itemName
            rfl
          split
          · subst itemName
            rfl
          · rename_i port baud data stop parity
            rw [if_neg (Ne.symm port), if_neg (Ne.symm baud), if_neg (Ne.symm data),
              if_neg (Ne.symm stop), if_neg (Ne.symm parity)]
            rfl

/-- The loop body collects the last value of each name, if it is run on the items in turn. -/
theorem foldl_readItem (l : Locals) (items : List Element) :
    items.foldl Locals.readItem l = l.override items := by
  induction items generalizing l with
  | nil => rfl
  | cons item items ih =>
      rw [List.foldl_cons, ih, readItem_eq, Locals.override, Locals.override]
      simp only [lastValue_cons]

/-- What the configuration gives. -/
def given (root : Element) : Locals := Locals.override {} root.children

/-- The configuration has been applied to `before`. -/
structure Applied (root : Element) (before after : ComEntityMap) : Prop where
  sufficient : (given root).Sufficient → after (given root).portName = some (given root).comEntity
  lacking : ¬ (given root).Sufficient → after = before

theorem SchemaValid.firstChild {root : Element} (valid : SchemaValid root) :
    root.firstChild "ComConfig" = [] := by
  have others : ∀ item ∈ root.children, item.value ≠ "ComConfig" := by
    intro item mem
    rw [(valid.items item mem).1]
    decide
  exact List.dropWhile_eq_nil_iff.mpr fun item mem => decide_eq_true (others item mem)

variable {globalConfigPath refFileName : String} {loadFile : String → Option Element}
  {root : Element}

/-- A document of the schema is read to no effect. -/
theorem parseComConfig_eq (loaded : loadFile (globalConfigPath ++ "/" ++ refFileName) = some root)
    (valid : SchemaValid root) (fuel : Nat) (before : ComEntityMap) :
    parseComConfig (fuel + 1) globalConfigPath refFileName loadFile before = some before := by
  unfold parseComConfig
  split
  · rfl
  · rw [loaded]
    dsimp only
    rw [valid.firstChild, comConfigLoop]

theorem parseComConfig_unchanged
    (loaded : loadFile (globalConfigPath ++ "/" ++ refFileName) = some root)
    (valid : SchemaValid root) {fuel : Nat} {before after : ComEntityMap}
    (parsed : parseComConfig fuel globalConfigPath refFileName loadFile before = some after) :
    before = after := by
  cases fuel with
  | zero =>
      unfold parseComConfig at parsed
      split at parsed
      · exact Option.some.inj parsed
      · rw [loaded] at parsed
        cases parsed
  | succ fuel =>
      rw [parseComConfig_eq loaded valid] at parsed
      exact Option.some.inj parsed

/-- **Applying a configuration.** -/
theorem parseComConfig_applies_iff
    (loaded : loadFile (globalConfigPath ++ "/" ++ refFileName) = some root)
    (valid : SchemaValid root) (before : ComEntityMap) :
    (∃ fuel after, parseComConfig fuel globalConfigPath refFileName loadFile before = some after ∧
        Applied root before after) ↔
      ((given root).Sufficient → before (given root).portName = some (given root).comEntity) := by
  constructor
  · rintro ⟨fuel, after, parsed, applied⟩ sufficient
    rw [parseComConfig_unchanged loaded valid parsed]
    exact applied.sufficient sufficient
  · intro already
    exact ⟨1, before, parseComConfig_eq loaded valid 0 before, already, fun _ => rfl⟩

/-- An item of the shipped file. -/
def item (name value : String) : Element := ⟨"Item", [("name", name), ("value", value)], []⟩

/-- `dat/RS485.xml` -/
def RS485 : Element where
  value := "ComConfig"
  attributes := [("name", "RS485"), ("desc", "RS485串行总线")]
  children :=
    [item "PortName" "/dev/ttyS0", item "BaudRate" "9600", item "DataBits" "8",
      item "StopBits" "1", item "Parity" "0", item "TotalTimeOut" "50000",
      item "IntervalTimeOut" "200", item "InBufferSize" "1024", item "OutBufferSize" "1024"]

theorem item_valid (name value : String) : (item name value).value = "Item" ∧
    (item name value).children = [] ∧ ((item name value).attributes.map Prod.fst).Nodup ∧
    ∀ a ∈ (item name value).attributes, a.1 = "name" ∨ a.1 = "value" := by
  refine ⟨rfl, rfl, ?_, ?_⟩
  · simp [item]
  · simp [item]

theorem RS485_valid : SchemaValid RS485 where
  rootValue := rfl
  rootAttributes := by simp [RS485]
  items := by
    simp only [RS485, List.forall_mem_cons]
    exact ⟨item_valid _ _, item_valid _ _, item_valid _ _, item_valid _ _, item_valid _ _,
      item_valid _ _, item_valid _ _, item_valid _ _, item_valid _ _, by simp⟩

theorem parseComConfig_applies_iff_RS485 :
    (∃ fuel after,
        parseComConfig fuel "dat" "RS485.xml" (fun _ => some RS485) (fun _ => none) = some after ∧
        Applied RS485 (fun _ => none) after) ↔
      ((given RS485).Sufficient → none = some (given RS485).comEntity) :=
  parseComConfig_applies_iff rfl RS485_valid fun _ => none

/-- The shipped configuration gives all that is needed and configures no port. -/
theorem RS485_not_applied : SchemaValid RS485 ∧ ¬ ∃ fuel after,
    parseComConfig fuel "dat" "RS485.xml" (fun _ => some RS485) (fun _ => none) = some after ∧
      Applied RS485 (fun _ => none) after := by
  refine ⟨RS485_valid, ?_⟩
  rintro ⟨fuel, after, parsed, applied⟩
  have unchanged := parseComConfig_unchanged rfl RS485_valid parsed
  have configured := applied.sufficient (by decide)
  rw [← unchanged] at configured
  cases configured

end ConfigMgr

end Dbdky

import Dbdky.BussinessLogic.ConfigMgrLoops

/-!
`ConfigMgr::update` (`src/bussiness_logic/ConfigMgr.cpp`): the configuration that names the other
configurations.

The loop over the `Config-Item` nodes does move on, from one sibling to the next of that name.
Of the three parsers it calls, those of the database and of the monitor units read nothing yet.

* **`update_configures_nothing`.** However the files are, `update` does not change
  `comEntityMap_`. It returns if and only if no file that it is referred to for ports has a
  `ComConfig` below its root.
-/

namespace Dbdky.ConfigMgr

def configFileName : String := "GlobalConf.xml"

/-- `parseDBConfig(refFileName)` puts the name of the file together. -/
def parseDBConfig (_refFileName : String) (comEntityMap : ComEntityMap) : ComEntityMap :=
  comEntityMap

/-- `parseMonitorUnitConfig(refFileName)`, the same -/
def parseMonitorUnitConfig (_refFileName : String) (comEntityMap : ComEntityMap) : ComEntityMap :=
  comEntityMap

section Update

variable (fuel : Nat) (globalConfigPath : String) (loadFile : String → Option Element)

/-- The body of the loop over the `Config-Item` nodes. -/
def configItem (configItemElement : Element) (comEntityMap : ComEntityMap) : Option ComEntityMap :=
  match configItemElement.attribute "name", configItemElement.attribute "desc",
      configItemElement.attribute "ref" with
  | some configType, some _, some configRef =>
      if "ComConfig" = configType then
        parseComConfig fuel globalConfigPath configRef loadFile comEntityMap
      else if "DBConfig" = configType then some (parseDBConfig configRef comEntityMap)
      else if "MonitorUnitConfig" = configType then
        some (parseMonitorUnitConfig configRef comEntityMap)
      -- "Unknown config type"
      else some comEntityMap
  -- "Bad config-item"
  | _, _, _ => some comEntityMap

/-- The loop over the `Config-Item` nodes. -/
def configItemLoop : Nat → List Element → ComEntityMap → Option ComEntityMap
  | 0, _, _ => none
  | _ + 1, [], comEntityMap => some comEntityMap
  | fuel + 1, node :: siblings, comEntityMap => do
      let comEntityMap ← configItem fuel globalConfigPath loadFile node comEntityMap
      configItemLoop fuel (firstNamed "Config-Item" siblings) comEntityMap

def parseConfigFile (comEntityMap : ComEntityMap) : Option ComEntityMap :=
  if globalConfigPath = "" then some comEntityMap
  else
    match loadFile (globalConfigPath ++ "/" ++ configFileName) with
    | none => some comEntityMap
    | some root =>
        configItemLoop globalConfigPath loadFile fuel (root.firstChild "Config-Item") comEntityMap

/-- `update(time)`, with the callback that the constructor sets, `onUpdate` -/
def update (comEntityMap : ComEntityMap) : Option ComEntityMap :=
  parseConfigFile fuel globalConfigPath loadFile comEntityMap

end Update

variable {fuel : Nat} {globalConfigPath refFileName : String} {loadFile : String → Option Element}
  {before after : ComEntityMap}

/-! ### One item -/

end Dbdky.ConfigMgr

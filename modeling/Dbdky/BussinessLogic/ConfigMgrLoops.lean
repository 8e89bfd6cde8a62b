import Mathlib.Data.List.Perm.Basic
import Dbdky.BussinessLogic.ConfigMgr

/-!
Which nodes the loops of `parseComConfig` visit.

* **`comConfigLoop_eq`.** What the loops compute is what the bodies do to the nodes that are
  visited, one after the other.
* **`visits_once_iff`.** `parseComConfig` returns, and has then visited every node once, if and
  only if the root has no `ComConfig` among its children.
-/

namespace Dbdky.ConfigMgr

/-! ### The visits -/

/-- The nodes that the loop over the items visits. -/
def itemVisits : Nat → List Element → Option (List Element)
  | 0, _ => none
  | _ + 1, [] => some []
  | fuel + 1, subNode :: siblings =>
      (itemVisits fuel (subNode :: siblings)).map (subNode :: ·)

/-- A `ComConfig` node that is visited, and the items that are visited below it. -/
structure Visit where
  node : Element
  items : List Element

/-- The nodes that the loop over the `ComConfig` nodes visits. -/
def comConfigVisits : Nat → List Element → Option (List Visit)
  | 0, _ => none
  | _ + 1, [] => some []
  | fuel + 1, node :: siblings => do
      let items ← itemVisits fuel (node.firstChild "Item")
      let visits ← comConfigVisits fuel (node :: siblings)
      some (⟨node, items⟩ :: visits)

/-- The nodes that `parseComConfig` visits. -/
def parseVisits (fuel : Nat) (globalConfigPath refFileName : String)
    (loadFile : String → Option Element) : Option (List Visit) :=
  if globalConfigPath = "" then some []
  else
    match loadFile (globalConfigPath ++ "/" ++ refFileName) with
    | none => some []
    | some root => comConfigVisits fuel (root.firstChild "ComConfig")

/-- What the body of the outer loop does with `stopBits` and `comEntityMap_`. -/
def configure (before : String × ComEntityMap) (visit : Visit) : String × ComEntityMap :=
  let l := visit.items.foldl Locals.readItem { stopBits := before.1 }
  if l.Sufficient then (l.stopBits, Function.update before.2 l.portName (some l.comEntity))
  else (l.stopBits, before.2)

theorem itemLoop_eq (fuel : Nat) (siblings : List Element) (l : Locals) :
    itemLoop fuel siblings l = (itemVisits fuel siblings).map (List.foldl Locals.readItem l) := by
  induction fuel generalizing l with
  | zero => rfl
  | succ fuel ih =>
      cases siblings with
      | nil => rfl
      | cons subNode siblings =>
          rw [itemLoop, ih, itemVisits, Option.map_map]
          rfl

theorem comConfigLoop_eq (fuel : Nat) (siblings : List Element) (stopBits : String)
    (comEntityMap : ComEntityMap) :
    comConfigLoop fuel siblings stopBits comEntityMap =
      (comConfigVisits fuel siblings).map fun visits =>
        (visits.foldl configure (stopBits, comEntityMap)).2 := by
  induction fuel generalizing stopBits comEntityMap with
  | zero => rfl
  | succ fuel ih =>
      cases siblings with
      | nil => rfl
      | cons node siblings =>
          rw [comConfigLoop, comConfigVisits, itemLoop_eq]
          cases itemVisits fuel (node.firstChild "Item") with
          | none => rfl
          | some items =>
              simp only [Option.map_some, Option.bind_eq_bind, Option.bind_some, ih]
              cases comConfigVisits fuel (node :: siblings) with
              | none =>
                  split <;> rfl
              | some visits =>
                  simp only [Option.map_some, Option.bind_some, List.foldl_cons, configure]
                  split <;> rfl

variable {fuel : Nat} {globalConfigPath refFileName : String} {loadFile : String → Option Element}
  {root : Element}

theorem parseComConfig_eq_visits (fuel : Nat) (globalConfigPath refFileName : String)
    (loadFile : String → Option Element) (comEntityMap : ComEntityMap) :
    parseComConfig fuel globalConfigPath refFileName loadFile comEntityMap =
      (parseVisits fuel globalConfigPath refFileName loadFile).map fun visits =>
        (visits.foldl configure ("", comEntityMap)).2 := by
  unfold parseComConfig parseVisits
  split
  · rfl
  · cases loadFile (globalConfigPath ++ "/" ++ refFileName) with
    | none => rfl
    | some root => exact comConfigLoop_eq ..

/-! ### Termination -/

/-- A loop that is entered is not left. -/
theorem comConfigVisits_cons (fuel : Nat) (node : Element) (siblings : List Element) :
    comConfigVisits fuel (node :: siblings) = none := by
  induction fuel with
  | zero => rfl
  | succ fuel ih =>
      rw [comConfigVisits, ih]
      cases itemVisits fuel (node.firstChild "Item") <;> rfl

theorem firstNamed_eq_nil_iff {value : String} {siblings : List Element} :
    firstNamed value siblings = [] ↔ ∀ element ∈ siblings, element.value ≠ value := by
  rw [firstNamed, List.dropWhile_eq_nil_iff]
  simp only [decide_eq_true_eq]

theorem parseVisits_loaded (path : globalConfigPath ≠ "")
    (loaded : loadFile (globalConfigPath ++ "/" ++ refFileName) = some root) :
    parseVisits fuel globalConfigPath refFileName loadFile =
      comConfigVisits fuel (root.firstChild "ComConfig") := by
  rw [parseVisits, if_neg path, loaded]

/-- Every `ComConfig` child, with every `Item` child of it. -/
def allVisits (root : Element) : List Visit :=
  (root.children.filter (·.value = "ComConfig")).map fun node =>
    ⟨node, node.children.filter (·.value = "Item")⟩

/-- **Termination.** -/
theorem visits_once_iff (path : globalConfigPath ≠ "")
    (loaded : loadFile (globalConfigPath ++ "/" ++ refFileName) = some root)
    (before : ComEntityMap) :
    (∃ fuel visits after,
        parseComConfig fuel globalConfigPath refFileName loadFile before = some after ∧
        parseVisits fuel globalConfigPath refFileName loadFile = some visits ∧
        visits.Perm (allVisits root)) ↔
      ∀ child ∈ root.children, child.value ≠ "ComConfig" := by
  rw [← firstNamed_eq_nil_iff]
  change _ ↔ root.firstChild "ComConfig" = []
  constructor
  · rintro ⟨fuel, visits, -, -, visited, -⟩
    rw [parseVisits_loaded path loaded] at visited
    cases here : root.firstChild "ComConfig" with
    | nil => rfl
    | cons node siblings =>
        rw [here, comConfigVisits_cons] at visited
        cases visited
  · intro none_there
    have nothing : allVisits root = [] := by
      have others := firstNamed_eq_nil_iff.mp none_there
      rw [allVisits, List.map_eq_nil_iff, List.filter_eq_nil_iff]
      intro child mem
      simpa using others child mem
    have visited : parseVisits 1 globalConfigPath refFileName loadFile = some [] := by
      rw [parseVisits_loaded path loaded, none_there]
      rfl
    refine ⟨1, [], before, ?_, visited, ?_⟩
    · rw [parseComConfig_eq_visits, visited]
      rfl
    · rw [nothing]

theorem visits_once_iff_RS485 :
    (∃ fuel visits after,
        parseComConfig fuel "dat" "RS485.xml" (fun _ => some RS485) (fun _ => none) = some after ∧
        parseVisits fuel "dat" "RS485.xml" (fun _ => some RS485) = some visits ∧
        visits.Perm (allVisits RS485)) ↔
      ∀ child ∈ RS485.children, child.value ≠ "ComConfig" :=
  visits_once_iff (by decide) rfl fun _ => none

/-- A root with one `ComConfig` child, which is empty. -/
def emptyComConfig : Element := ⟨"Config", [], [⟨"ComConfig", [], []⟩]⟩

/-- The loop comes back to the empty node in every round. -/
theorem emptyComConfig_never_returns (before : ComEntityMap) :
    parseComConfig fuel "dat" "RS485.xml" (fun _ => some emptyComConfig) before = none := by
  rw [parseComConfig_eq_visits, parseVisits_loaded (by decide) rfl]
  exact congrArg (Option.map _) (comConfigVisits_cons fuel ⟨"ComConfig", [], []⟩ [])

theorem emptyComConfig_not_visited_once :
    ¬∃ fuel visits after,
      parseComConfig fuel "dat" "RS485.xml" (fun _ => some emptyComConfig) (fun _ => none) =
        some after ∧
      parseVisits fuel "dat" "RS485.xml" (fun _ => some emptyComConfig) = some visits ∧
      visits.Perm (allVisits emptyComConfig) := by
  rintro ⟨fuel, visits, after, returned, -⟩
  rw [emptyComConfig_never_returns] at returned
  cases returned

end Dbdky.ConfigMgr

/-
# Module registry

`src/packages/kernel/src/version-range.ts`, lines 10-92; `module-compatibility.ts`, lines
58-140 (`assertPlatformLine`, `assertModuleCompatibility`, `assertModuleDependency`);
`module-registry.ts`, lines 11-123 (`compareModules`, `capabilityProviders`,
`visitModule`, `createModuleRegistry`); the types of `src/packages/contracts/src/index.ts`
and the pattern of an identifier in `module.schema.json`.

The parts of a version are numbers of JavaScript: natural numbers, rounded from `2 ^ 53` on
(`toNumber`).  The search behind `visitModule` is the depth-first search of the library on
the checked edges of a module (`targets`), and the registry is settled by what that search
does.
-/

import Flowdular.Lib.Dfs
import Flowdular.Workflows.Text

namespace Flowdular.Kernel

open Lib Workflows

/-! ### Versions and ranges -/

abbrev Version := ℕ × ℕ × ℕ

/-- `Number` of a whole number: the nearest double, the even one of two; `Infinity` is
`2 ^ 1024`. -/
def toNumber (n : ℕ) : ℕ :=
  if n < 2 ^ 53 then n
  else
    let unit := 2 ^ (n.log2 - 52)
    let below := n % unit * 2 < unit ∨ n % unit * 2 = unit ∧ n / unit % 2 = 0
    min ((if below then n / unit else n / unit + 1) * unit) (2 ^ 1024)

/-- The text of a number: from `10 ^ 21` on it has an exponent, here without the digits
behind its first. -/
def numberText (n : ℕ) : String :=
  if n < 10 ^ 21 then toString n
  else if n = 2 ^ 1024 then "Infinity"
  else
    let exponent := (Nat.toDigits 10 n).length - 1
    s!"{n / 10 ^ exponent}e+{exponent}"

/-- A part of `VERSION`: `0|[1-9]\d*`. -/
def versionPart (cs : List Char) : Option ℕ :=
  if cs = ['0'] then some 0
  else if cs ≠ [] ∧ cs.head? ≠ some '0' ∧ cs.all isDigit then
    some (toNumber (cs.foldl (fun n c => 10 * n + (c.toNat - 48)) 0))
  else none

def parseVersion (value : List Char) : Option Version :=
  match (trimChars value).splitOn '.' with
  | [major, minor, patch] => do
    let major ← versionPart major
    let minor ← versionPart minor
    let patch ← versionPart patch
    return (major, minor, patch)
  | _ => none

def compareVersions (left right : Version) : ℤ :=
  if left.1 ≠ right.1 then (left.1 : ℤ) - right.1
  else if left.2.1 ≠ right.2.1 then (left.2.1 : ℤ) - right.2.1
  else if left.2.2 ≠ right.2.2 then (left.2.2 : ℤ) - right.2.2
  else 0

/-- The operators of `COMPARATOR`. -/
inductive Operator
  | caret
  | tilde
  | ge
  | le
  | gt
  | lt
  | eq
deriving DecidableEq

def upperBound (pre : Operator) (version : Version) : Version :=
  let (major, minor, patch) := version
  if pre = .tilde then (major, toNumber (minor + 1), 0)
  else if 0 < major then (toNumber (major + 1), 0, 0)
  else if 0 < minor then (major, toNumber (minor + 1), 0)
  else (major, minor, toNumber (patch + 1))

/-- The operators in the order `COMPARATOR` tries them. -/
def operators : List (List Char × Operator) :=
  [(['^'], .caret), (['~'], .tilde), (['>', '='], .ge), (['<', '='], .le), (['>'], .gt),
    (['<'], .lt), (['='], .eq)]

/-- `COMPARATOR.exec` of a term, which has no white space in it: the first operator that
leaves something behind it, or none. -/
def comparatorOf (term : List Char) : Option (Option Operator × List Char) :=
  let tries := (operators.filter fun (text, _) => text.isPrefixOf term).map fun (text, operator) =>
    (some operator, term.drop text.length)
  (tries ++ [(none, term)]).find? fun (_, rest) => rest ≠ []

def comparatorMatches (version : Version) (comparator : List Char) : Bool :=
  match comparatorOf comparator with
  | none => false
  | some (operator, text) =>
    match parseVersion text with
    | none => false
    | some bound =>
      let order := compareVersions version bound
      match operator.getD .eq with
      | .caret => 0 ≤ order && compareVersions version (upperBound .caret bound) < 0
      | .tilde => 0 ≤ order && compareVersions version (upperBound .tilde bound) < 0
      | .ge => 0 ≤ order
      | .le => order ≤ 0
      | .gt => 0 < order
      | .lt => order < 0
      | .eq => order = 0

/-- `split('||')`. -/
def splitBars : List Char → List (List Char)
  | '|' :: '|' :: rest => [] :: splitBars rest
  | c :: rest =>
    match splitBars rest with
    | [] => [[c]]
    | head :: tail => (c :: head) :: tail
  | [] => [[]]

def comparators (range : List Char) : Option (List (List (List Char))) :=
  ((splitBars range).map trimChars).mapM fun alternative =>
    if alternative = [] ∨ alternative = ['*'] then some []
    else
      let terms := (alternative.splitOnP isWhiteSpace).filter (· ≠ [])
      if terms.all fun term => (comparatorOf term).any fun (_, text) => (parseVersion text).isSome then
        some terms
      else none

def isValidRange (range : String) : Bool :=
  (comparators range.toList).isSome

def rangeSatisfies (version range : String) : Bool :=
  match parseVersion version.toList, comparators range.toList with
  | some parsed, some alternatives =>
    alternatives.any fun terms => terms.all fun term => comparatorMatches parsed term
  | _, _ => false

example : rangeSatisfies "0.8.3" "^0.8.1 || >=2.0.0" = true := by decide +kernel
example : rangeSatisfies "0.9.0" "^0.8.1" = false := by decide +kernel
example : isValidRange "not-semver" = false := by decide +kernel

/-- A match of `\d+\.\d+\.\d+` at the front, with what is behind it. -/
def namedVersion (cs : List Char) : Option (List Char × List Char) :=
  match cs.takeWhile isDigit, cs.dropWhile isDigit with
  | major@(_ :: _), '.' :: cs =>
    match cs.takeWhile isDigit, cs.dropWhile isDigit with
    | minor@(_ :: _), '.' :: cs =>
      match cs.takeWhile isDigit, cs.dropWhile isDigit with
      | patch@(_ :: _), rest => some (major ++ '.' :: minor ++ '.' :: patch, rest)
      | [], _ => none
    | _, _ => none
  | _, _ => none

/-- `matchAll(/\d+\.\d+\.\d+/g)`, with fuel for the length of the text. -/
def namedVersions : ℕ → List Char → List (List Char)
  | 0, _ => []
  | _ + 1, [] => []
  | n + 1, c :: cs =>
    match namedVersion (c :: cs) with
    | some (found, rest) => found :: namedVersions n rest
    | none => namedVersions n cs

/-! ### Modules -/

/-- `RegistryError`, as one text. -/
def registryError (code message : String) : String :=
  s!"{code}: {message}"

structure ModuleDependency where
  id : String
  range : String

structure ModuleCapabilityRequirement where
  id : String
  optional : Bool := false

/-- `ModuleManifest`, the parts the registry reads; its identifier is of the pattern of the
manifest schema. -/
structure ModuleManifest where
  id : String
  version : String
  platformApi : Option String
  dependencies : List ModuleDependency
  provides : List String := []
  requires : List ModuleCapabilityRequirement := []
  identifier : isIdentifier id = true

/-- `NavigationContribution`, the parts a registry reads. -/
structure NavigationContribution where
  id : String
  permission : Option String := none

structure RegisteredModule where
  manifest : ModuleManifest
  navigation : List NavigationContribution := []

/-- The identifier of a module. -/
abbrev RegisteredModule.id (m : RegisteredModule) : String :=
  m.manifest.id

def PLATFORM_API_VERSION : String := "0.2.4"

def satisfiesModuleVersion (version range : String) : Bool :=
  rangeSatisfies version range

/-- `candidate.join('.')`. -/
def joinVersion (version : Version) : String :=
  s!"{numberText version.1}.{numberText version.2.1}.{numberText version.2.2}"

def assertPlatformLine (moduleId range platformVersion : String) : Except String Unit :=
  match parseVersion platformVersion.toList,
      (namedVersions range.length range.toList).mapM parseVersion with
  | some (major, minor, _), some named =>
    let line : Version := (major, minor, 0)
    let candidates := (0, 0, 0) ::
      named.flatMap fun version => [version, (version.1, version.2.1, toNumber (version.2.2 + 1))]
    let older := candidates.any fun candidate =>
      compareVersions candidate line < 0 && rangeSatisfies (joinVersion candidate) range
    if older then
      let lineText := joinVersion line
      .error (registryError "MODULE_PLATFORM_INCOMPATIBLE"
        s!"{moduleId} declares platform API {range}, which also admits versions before {lineText}; declare \"^{lineText}\".")
    else .ok ()
  | _, _ => .error "TypeError"

/-- The loop of `assertModuleCompatibility` over the dependencies. -/
def assertRanges (moduleId : String) : List String → List ModuleDependency → Except String Unit
  | _, [] => .ok ()
  | ids, dependency :: rest =>
    if trimChars dependency.range.toList = [] ∨ isValidRange dependency.range = false then
      .error (registryError "MODULE_RANGE_INVALID"
        s!"{moduleId} declares an invalid range for {dependency.id}: {dependency.range}")
    else if dependency.id ∈ ids then
      .error (registryError "MODULE_DEPENDENCY_DUPLICATE"
        s!"{moduleId} declares {dependency.id} more than once.")
    else assertRanges moduleId (dependency.id :: ids) rest

/-- `assertModuleCompatibility`, against the version of this platform. -/
def assertModuleCompatibility (manifest : ModuleManifest) : Except String Unit :=
  if parseVersion manifest.version.toList = none then
    .error (registryError "MODULE_VERSION_INVALID"
      s!"Invalid version for {manifest.id}: {manifest.version}")
  else
    match manifest.platformApi with
    | none =>
      .error (registryError "MODULE_PLATFORM_REQUIRED"
        s!"{manifest.id} declares no platformApi; add \"platformApi\": \"^{PLATFORM_API_VERSION}\".")
    | some platformApi =>
      if isValidRange platformApi = false ∨
          satisfiesModuleVersion PLATFORM_API_VERSION platformApi = false then
        .error (registryError "MODULE_PLATFORM_INCOMPATIBLE"
          s!"{manifest.id} requires platform API {platformApi}; available {PLATFORM_API_VERSION}.")
      else
        match assertPlatformLine manifest.id platformApi PLATFORM_API_VERSION with
        | .error e => .error e
        | .ok _ => assertRanges manifest.id [] manifest.dependencies

def assertModuleDependency (consumer : String) (dependency : ModuleDependency) (version : String) :
    Except String Unit :=
  if satisfiesModuleVersion version dependency.range = false then
    .error (registryError "MODULE_DEPENDENCY_INCOMPATIBLE"
      s!"{consumer} requires {dependency.id} {dependency.range}; available {version}.")
  else .ok ()

/-! ### The registry -/

/-- `modules.get(id)`. -/
def getModule (modules : List RegisteredModule) (id : String) : Option RegisteredModule :=
  modules.find? fun m => m.id = id

/-- The inner loop of `capabilityProviders`; a provider that is set again stands in front. -/
def provideAll (moduleId : String) :
    List String → List (String × String) → Except String (List (String × String))
  | [], providers => .ok providers
  | capability :: rest, providers =>
    match providers.lookup capability with
    | some existing =>
      if existing ≠ "" ∧ existing ≠ moduleId then
        .error (registryError "MODULE_CAPABILITY_DUPLICATE"
          s!"Capability \"{capability}\" is provided by both \"{existing}\" and \"{moduleId}\".")
      else provideAll moduleId rest ((capability, moduleId) :: providers)
    | none => provideAll moduleId rest ((capability, moduleId) :: providers)

def capabilityProviders (modules : List RegisteredModule) : Except String (List (String × String)) :=
  modules.foldlM (fun providers m => provideAll m.id m.manifest.provides providers) []

/-- The sets and the list `visitModule` works on. -/
structure Walk where
  visiting : List String
  visited : List String
  ordered : List RegisteredModule

/-- The loop over the contributions of one module. -/
def registerNavigation : List NavigationContribution → List String → Except String (List String)
  | [], ids => .ok ids
  | item :: rest, ids =>
    if item.id ∈ ids then
      .error (registryError "NAVIGATION_DUPLICATE"
        s!"Navigation contribution \"{item.id}\" is registered more than once.")
    else registerNavigation rest (ids ++ [item.id])

/-- The loop of `createModuleRegistry` over its input. -/
def register : List RegisteredModule → List RegisteredModule → List String →
    Except String (List RegisteredModule)
  | [], byId, _ => .ok byId
  | m :: rest, byId, navigationIds =>
    match assertModuleCompatibility m.manifest with
    | .error e => .error e
    | .ok _ =>
      if byId.any fun other => other.id = m.id then
        .error (registryError "MODULE_DUPLICATE" s!"Module \"{m.id}\" is registered more than once.")
      else
        match registerNavigation m.navigation navigationIds with
        | .error e => .error e
        | .ok navigationIds => register rest (byId ++ [m]) navigationIds

/-- The error of a module the search is still in. -/
def cycleAt (id : String) : String :=
  registryError "MODULE_DEPENDENCY_CYCLE" s!"Dependency cycle detected at \"{id}\"."

/-- The module a dependency has visited, if that is there at a version in the range. -/
def dependencyTarget (modules : List RegisteredModule) (id : String) (dependency : ModuleDependency) :
    Except String String :=
  match getModule modules dependency.id with
  | none =>
    .error (registryError "MODULE_DEPENDENCY_MISSING"
      s!"Module \"{id}\" requires missing module \"{dependency.id}\".")
  | some target =>
    match assertModuleDependency id dependency target.manifest.version with
    | .error e => .error e
    | .ok _ => .ok dependency.id

/-- The provider a requirement has visited, unless it is optional or the module's own. -/
def requirementTarget (providers : List (String × String)) (id : String)
    (requirement : ModuleCapabilityRequirement) : Option (Except String String) :=
  if requirement.optional then none
  else
    match (providers.lookup requirement.id).filter (· ≠ "") with
    | none =>
      some (.error (registryError "MODULE_CAPABILITY_MISSING"
        s!"Module \"{id}\" requires capability \"{requirement.id}\" and no registered module provides it."))
    | some provider => if provider = id then none else some (.ok provider)

/-- The body of the loop of `visitModule` over the dependencies. -/
def visitDependency (modules : List RegisteredModule) (visit : String → Walk → Except String Walk)
    (id : String) (walk : Walk) (dependency : ModuleDependency) : Except String Walk :=
  match dependencyTarget modules id dependency with
  | .error e => .error e
  | .ok target => visit target walk

/-- The body of the loop of `visitModule` over the requirements. -/
def visitRequirement (providers : List (String × String))
    (visit : String → Walk → Except String Walk) (id : String) (walk : Walk)
    (requirement : ModuleCapabilityRequirement) : Except String Walk :=
  match requirementTarget providers id requirement with
  | none => .ok walk
  | some (.error e) => .error e
  | some (.ok provider) => visit provider walk

variable [Host]

/-- `Array.prototype.sort` by `localeCompare` of a key. -/
def sortByLocale {α : Type} (key : α → String) (items : List α) : List α :=
  items.insertionSort fun a b => Host.localeCompare (key a) (key b) ≠ .gt

/-- `visitModule`, with fuel for its depth. -/
def visitModule (modules : List RegisteredModule) (providers : List (String × String)) :
    ℕ → String → Walk → Except String Walk
  | 0, _, _ => .error "RangeError"
  | fuel + 1, id, walk =>
    if id ∈ walk.visited then .ok walk
    else if id ∈ walk.visiting then .error (cycleAt id)
    else
      match getModule modules id with
      | none => .error (registryError "MODULE_NOT_FOUND" s!"Module \"{id}\" is not registered.")
      | some current => do
        let walk := { walk with visiting := id :: walk.visiting }
        let walk ← (sortByLocale (·.id) current.manifest.dependencies).foldlM
          (visitDependency modules (visitModule modules providers fuel) id) walk
        let walk ← (sortByLocale (·.id) current.manifest.requires).foldlM
          (visitRequirement providers (visitModule modules providers fuel) id) walk
        return {
          visiting := walk.visiting.erase id, visited := walk.visited ++ [id],
          ordered := walk.ordered ++ [current] }

/-- `createModuleRegistry`, as the list `modules` of the registry. -/
def createModuleRegistry (input : List RegisteredModule) : Except String (List RegisteredModule) := do
  let byId ← register input [] []
  let providers ← capabilityProviders byId
  let walk ← (sortByLocale (·.id) input).foldlM
    (fun walk m => visitModule byId providers (byId.length + 1) m.id walk) ⟨[], [], []⟩
  return walk.ordered

end Flowdular.Kernel

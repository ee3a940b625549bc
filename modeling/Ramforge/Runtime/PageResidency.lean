/-
Which pages of the model are resident, asked of the kernel page by page.

The selected resources come first, and a page that several resources share is asked for
once.  The populations that the counts are set against come from interval arithmetic.
-/
import Ramforge.Runtime.PlanCompiler
import Ramforge.Runtime.ResidencyInventory
import Ramforge.Rust.Grouping
import Ramforge.Rust.Intervals
import Ramforge.Rust.KeyMove
import Ramforge.Rust.Loop
import Ramforge.Rust.Unicode

namespace Ramforge

open Std Rust Rust.Exec

/-- `max_pages` is a `usize`. -/
structure PageObservationConfig where
  maxPages : Nat
  maxResources : Nat
  maxPages_lt : maxPages < u64Bound

structure PageRange where
  name : String
  tensorIndex : Int
  generation : Nat
  mappingIndex : Option Nat
  mappingPath : Option String
  pageStart : Nat
  pageEnd : Nat
  pageSize : Nat
  mappingSize : Nat
deriving DecidableEq, Repr

structure ResourcePageResidency where
  name : String
  tensorIndex : Int
  generation : Nat
  mappingIndex : Option Nat
  totalPages : Nat
  inspectedPages : Nat
  residentPages : Nat
  nonresidentPages : Nat
  unknownPages : Nat
  sampled : Bool
  targeted : Bool
  error : Option String
deriving DecidableEq, Repr

structure TargetedObservationCoverage where
  selectedResources : Nat
  selectedResourcesFullyObserved : Nat
  selectedResourcesPartiallyObserved : Nat
  selectedResourcesNotObserved : Nat
  targetedPagesAvailable : Nat
  targetedPagesSampled : Nat
  targetedPagesUnknown : Nat
  generalPagesAvailable : Nat
  generalPagesSampled : Nat
  generalPagesUnknown : Nat
  targetedCoverageBps : Option Nat
  generalCoverageBps : Option Nat
  pageBudget : Nat
deriving DecidableEq, Repr

structure PageResidencySnapshot where
  supported : Bool
  source : String
  pageSize : Option Nat
  inspectedPages : Nat
  totalPages : Nat
  residentPages : Nat
  nonresidentPages : Nat
  unknownPages : Nat
  uniqueResidentPages : Nat
  uniqueNonresidentPages : Nat
  uniqueUnknownPages : Option Nat
  sampled : Bool
  resources : List ResourcePageResidency
  targeted : Option TargetedObservationCoverage
  elapsedNs : Nat
  unsupportedReason : Option String
deriving DecidableEq, Repr

def PageResidencySnapshot.unsupported (reason : String) : PageResidencySnapshot where
  supported := false
  source := "unavailable"
  pageSize := none
  inspectedPages := 0
  totalPages := 0
  residentPages := 0
  nonresidentPages := 0
  unknownPages := 0
  uniqueResidentPages := 0
  uniqueNonresidentPages := 0
  uniqueUnknownPages := none
  sampled := false
  resources := []
  targeted := none
  elapsedNs := 0
  unsupportedReason := some reason

/-- What the process asks the kernel.  `mincore call address length` is how the call of
that number ends, with the status byte of each page. -/
structure Kernel where
  maps : Except String String
  pageSize : Int
  mincore : Nat → Nat → Nat → Except String (Nat → UInt8)
  elapsedNs : Nat

def ResourceInventory.pageRanges (inventory : ResourceInventory) (shardPaths : List String) :
    List PageRange :=
  inventory.resources.map fun resource =>
    { name := resource.name
      tensorIndex := resource.key.tensorIndex
      generation := resource.key.generation
      mappingIndex := resource.mappingIndex
      mappingPath := resource.mappingIndex.bind fun index => shardPaths[index]?
      pageStart := resource.pageStart
      pageEnd := resource.pageEnd
      pageSize := resource.pageSize
      mappingSize := resource.mappingSize }

namespace PageResidency

/-! ## The mappings of the process -/

/-- `str::lines`: a line ends with a line feed, and a carriage return before it is not
part of the line. -/
def linesFrom (line : List Char) : List Char → List (List Char)
  | [] => if line = [] then [] else [line]
  | '\n' :: rest =>
    (if line.getLast? = some '\r' then line.dropLast else line) :: linesFrom [] rest
  | c :: rest => linesFrom (line ++ [c]) rest

def hexDigit (c : Char) : Option Nat :=
  if '0' ≤ c ∧ c ≤ '9' then some (c.toNat - '0'.toNat)
  else if 'a' ≤ c ∧ c ≤ 'f' then some (c.toNat - 'a'.toNat + 10)
  else if 'A' ≤ c ∧ c ≤ 'F' then some (c.toNat - 'A'.toNat + 10)
  else none

/-- `u64::from_str_radix(.., 16)`. -/
def parseHex (digits : List Char) : Option Nat := do
  let digits := match digits with
    | '+' :: rest => rest
    | l => l
  if digits = [] then none
  else
    let digits ← digits.mapM hexDigit
    let value := digits.foldl (fun n d => 16 * n + d) 0
    if value < u64Bound then some value else none

/-- The next `n` fields, each of which ends with white space, and the text behind them. -/
def headerFields : Nat → List Char → Option (List (List Char) × List Char)
  | 0, rest => some ([], rest)
  | n + 1, rest => do
    let trimmed := Unicode.trimStart rest
    let field := trimmed.takeWhile fun c => !Unicode.isWhitespace c
    if field.length = trimmed.length then none
    else
      let (fields, rest) ← headerFields n (trimmed.drop field.length)
      some (field :: fields, rest)

def deletedSuffix : List Char := " (deleted)".toList

def parseMapsHeader (line : List Char) : Option (Nat × Nat × String) := do
  let (fields, rest) ← headerFields 5 line
  let addresses ← fields[0]?
  let (start, stop) ← Unicode.splitOnce ['-'] addresses
  let start ← parseHex start
  let _ ← parseHex stop
  let offset ← fields[2]?
  let offset ← parseHex offset
  let path := Unicode.trimStart rest
  if path.head? ≠ some '/' then none
  else if deletedSuffix.isSuffixOf path then
    some (start, offset, String.ofList (path.take (path.length - deletedSuffix.length)))
  else some (start, offset, String.ofList path)

/-- The least address at which each mapped file would begin, under the components of its
path. -/
abbrev Bases : Type := List ((Bool × List (List Char)) × Nat)

def addBase (bases : Bases) (line : List Char) : Bases :=
  match parseMapsHeader line with
  | none => bases
  | some (start, offset, path) =>
    match checkedSub start offset with
    | none => bases
    | some base =>
      let key := Planner.pathComponents path
      HashMap.insert bases key
        (match bases.lookup key with
        | some existing => min existing base
        | none => base)

def basesOf (maps : String) : Bases := (linesFrom [] maps.toList).foldl addBase []

/-! ## Populations -/

/-- `u64::div_ceil`. -/
def divCeil (a b : Nat) : Nat := (a + b - 1) / b

def pageCount (range : PageRange) : Nat :=
  if range.pageSize = 0 ∨ range.pageEnd ≤ range.pageStart then 0
  else divCeil (range.pageEnd - range.pageStart) range.pageSize

def pageInterval (range : PageRange) : Option (Nat × Nat) :=
  if range.pageSize = 0 ∨ range.pageEnd ≤ range.pageStart ∨ range.mappingIndex.isNone then none
  else
    let start := range.pageStart / range.pageSize
    let stop := divCeil range.pageEnd range.pageSize
    if start < stop then some (start, stop) else none

abbrev Intervals : Type := ExtTreeMap Nat (List (Nat × Nat)) compare

def addInterval (intervals : Intervals) (range : PageRange) : Intervals :=
  match range.mappingIndex, pageInterval range with
  | some mappingIndex, some interval =>
    intervals.insert mappingIndex ((intervals[mappingIndex]?).getD [] ++ [interval])
  | _, _ => intervals

/-- The round of the loop over the mappings. -/
def addUnion (total : Nat) (values : List (Nat × Nat)) : Nat :=
  match values.insertionSort Interval.before with
  | [] => total
  | (first, last) :: rest => Interval.sweepFrom rest total first last

def intervalUnionCount (intervals : Intervals) : Nat :=
  (intervals.toList.map Prod.snd).foldl addUnion 0

def intervalContains (intervals : Intervals) (mappingIndex page : Nat) : Bool :=
  intervals[mappingIndex]?.any fun values =>
    values.any fun interval => interval.1 ≤ page && page < interval.2

def availableFor (bases : Bases) (range : PageRange) : Bool :=
  range.mappingIndex.isSome &&
    range.mappingPath.any fun path => (bases.lookup (Planner.pathComponents path)).isSome

structure Population where
  all : Intervals
  target : Intervals
  unavailableUnknownPages : Nat

def addRange (bases : Bases) (selected : ExtTreeSet String) (population : Population)
    (range : PageRange) : Population :=
  if ¬availableFor bases range then
    { population with
      unavailableUnknownPages :=
        saturatingAdd population.unavailableUnknownPages (pageCount range) }
  else
    { population with
      all := addInterval population.all range
      target :=
        if selected.contains range.name then addInterval population.target range
        else population.target }

def populationOf (bases : Bases) (selected : ExtTreeSet String) (ranges : List PageRange) :
    Population :=
  ranges.foldl (addRange bases selected) { all := ∅, target := ∅, unavailableUnknownPages := 0 }

/-- `sort_by_key` of the indices: the selected ranges first. -/
def orderLe (selected : ExtTreeSet String) (a b : PageRange × Nat) : Prop :=
  let other (range : PageRange) : Nat := (!selected.contains range.name).toNat
  other a.1 < other b.1 ∨ other a.1 = other b.1 ∧ a.2 ≤ b.2

instance (selected : ExtTreeSet String) : DecidableRel (orderLe selected) := fun _ _ =>
  inferInstanceAs (Decidable (_ ∨ _ ∧ _))

def orderOf (selected : ExtTreeSet String) (ranges : List PageRange) : List PageRange :=
  (ranges.zipIdx.insertionSort (orderLe selected)).map Prod.fst

/-! ## Inspection -/

/-- The pages seen so far.  The code has `observed` only: `calls` numbers the calls of
`mincore`, and `inspected` lists the pages that it has answered for. -/
structure Sampling where
  observed : ExtTreeMap (Nat × Nat) Bool pairOrder
  calls : Nat
  inspected : List (Nat × Nat)

def Sampling.start : Sampling where
  observed := ∅
  calls := 0
  inspected := []

/-- The locals of the loop over the pages of a resource. -/
structure PageScan where
  pageIndex : Nat
  resource : ResourcePageResidency

/-- The inner loop: the pages from `page` on that have not been seen, at most `limit`. -/
def runLength (seen : Nat → Bool) : Nat → Nat → Nat
  | 0, _ => 0
  | limit + 1, page => if seen page then 0 else runLength seen limit (page + 1) + 1

def countPage (resource : ResourcePageResidency) (resident : Bool) : ResourcePageResidency :=
  if resident then { resource with residentPages := resource.residentPages + 1 }
  else { resource with nonresidentPages := resource.nonresidentPages + 1 }

/-- The loop over the answers for `count` pages from `page` on. -/
def record (mappingIndex : Nat) (status : Nat → UInt8) (page : Nat) (count : Nat)
    (resource : ResourcePageResidency) (sampling : Sampling) : ResourcePageResidency × Sampling :=
  (List.range count).foldl (fun (resource, sampling) offset =>
    let resident : Bool := status offset &&& 1 ≠ 0
    (countPage resource resident,
      { sampling with
        observed := sampling.observed.insert (mappingIndex, page + offset) resident
        inspected := sampling.inspected ++ [(mappingIndex, page + offset)] })) (resource, sampling)

def capacityOverflow : String := "capacity overflow"

section inspect

variable (kernel : Kernel) (config : PageObservationConfig) (pageSize : Nat)

def inspectRound (range : PageRange) (mappingIndex base : Nat) (scan : PageScan) :
    Exec Sampling Empty (RoundEnd PageScan ResourcePageResidency) := do
  let resource := scan.resource
  let sampling ← self
  let page := range.pageStart / range.pageSize + scan.pageIndex
  let budgetLeft := saturatingSub config.maxPages sampling.observed.size
  let seen page := sampling.observed.contains (mappingIndex, page)
  let runLen := runLength seen (min (resource.totalPages - scan.pageIndex) budgetLeft) page
  if resource.totalPages ≤ scan.pageIndex then pure (.leave resource)
  else
    match sampling.observed[(mappingIndex, page)]? with
    | some resident =>
      pure (.again
        { pageIndex := scan.pageIndex + 1
          resource :=
            countPage { resource with inspectedPages := resource.inspectedPages + 1 } resident })
    | none =>
      if budgetLeft = 0 ∨ runLen = 0 then pure (.leave resource)
      else
        match checkedAdd base (saturatingMul scan.pageIndex pageSize) with
        | none => pure (.leave { resource with error := some "page address overflow" })
        | some address =>
          if isizeBound ≤ runLen then Exec.panic capacityOverflow
          else
            match kernel.mincore sampling.calls address (saturatingMul runLen pageSize) with
            | .error text => do
              set { sampling with calls := sampling.calls + 1 }
              pure (.leave { resource with error := some s!"mincore: {text}" })
            | .ok status => do
              let recorded := record mappingIndex status page runLen resource
                { sampling with calls := sampling.calls + 1 }
              set recorded.2
              pure (.again
                { pageIndex := scan.pageIndex + runLen
                  resource :=
                    { recorded.1 with inspectedPages := recorded.1.inspectedPages + runLen } })

def inspectPages (range : PageRange) (mappingIndex base : Nat) (resource : ResourcePageResidency) :
    Exec Sampling Empty ResourcePageResidency :=
  loopOn (fun scan => resource.totalPages - scan.pageIndex)
    (inspectRound kernel config pageSize range mappingIndex base)
    { pageIndex := 0
      resource := resource }

/-- A resource none of whose pages is known. -/
def unknownResource (selected : ExtTreeSet String) (range : PageRange) (error : Option String) :
    ResourcePageResidency where
  name := range.name
  tensorIndex := range.tensorIndex
  generation := range.generation
  mappingIndex := range.mappingIndex
  totalPages := pageCount range
  inspectedPages := 0
  residentPages := 0
  nonresidentPages := 0
  unknownPages := pageCount range
  sampled := false
  targeted := selected.contains range.name
  error := error

/-- The round of the loop over the processed resources. -/
def observeRange (bases : Bases) (selected : ExtTreeSet String) (range : PageRange) :
    Exec Sampling Empty ResourcePageResidency :=
  let unknown error := unknownResource selected range (some error)
  if pageCount range = 0 then pure (unknownResource selected range none)
  else
    match range.mappingIndex with
    | none => pure (unknown "resource has no file-backed mapping")
    | some mappingIndex =>
      match range.mappingPath with
      | none => pure (unknown "mapping shard path unavailable")
      | some path =>
        match bases.lookup (Planner.pathComponents path) with
        | none => pure (unknown "mapping is not present in /proc/self/maps")
        | some base =>
          match checkedAdd base range.pageStart with
          | none => pure (unknown "page address overflow")
          | some base => do
            let resource ← inspectPages kernel config pageSize range mappingIndex base
              (unknownResource selected range none)
            pure { resource with
              unknownPages := saturatingSub resource.totalPages resource.inspectedPages
              sampled := decide (resource.inspectedPages < resource.totalPages) }

end inspect

/-- The round of the loop over the resources left out. -/
def omittedResource (selected : ExtTreeSet String) (range : PageRange) : ResourcePageResidency :=
  { unknownResource selected range (some "resource omitted by max_resources") with
    sampled := decide (0 < pageCount range) }

/-! ## The snapshot -/

def addTotals (totals : ExtTreeMap String (Nat × Nat)) (resource : ResourcePageResidency) :
    ExtTreeMap String (Nat × Nat) :=
  if resource.targeted then
    let entry := (totals[resource.name]?).getD (0, 0)
    totals.insert resource.name
      (saturatingAdd entry.1 resource.totalPages, saturatingAdd entry.2 resource.unknownPages)
  else totals

def coverageBps (build : Build) (sampled available : Nat) : Exec Sampling Empty (Option Nat) :=
  if 0 < available then do
    let scaled ← expect (build.mul sampled 10000) Build.mulOverflow
    pure (some (scaled / available % 65536))
  else pure none

def targetedCoverage (build : Build) (config : PageObservationConfig)
    (selected : ExtTreeSet String) (target : Intervals) (allUniquePages targetedAvailable : Nat)
    (resources : List ResourcePageResidency) :
    Exec Sampling Empty TargetedObservationCoverage := do
  let sampling ← self
  let targetedSampled :=
    (sampling.observed.keys.filter fun key => intervalContains target key.1 key.2).length
  let generalSampled := saturatingSub sampling.observed.size targetedSampled
  let totals := (resources.foldl addTotals ∅).toList.map Prod.snd
  let count p := (totals.filter p).length
  let generalAvailable := saturatingSub allUniquePages targetedAvailable
  let targetedBps ← coverageBps build targetedSampled targetedAvailable
  let generalBps ← coverageBps build generalSampled generalAvailable
  return {
    selectedResources := selected.size
    selectedResourcesFullyObserved := count fun (total, unknown) => total = 0 || unknown = 0
    selectedResourcesPartiallyObserved :=
      count fun (total, unknown) => 0 < total && 0 < unknown && unknown < total
    selectedResourcesNotObserved :=
      (count fun (total, unknown) => 0 < total && unknown = total) +
        saturatingSub selected.size totals.length
    targetedPagesAvailable := targetedAvailable
    targetedPagesSampled := targetedSampled
    targetedPagesUnknown := saturatingSub targetedAvailable targetedSampled
    generalPagesAvailable := generalAvailable
    generalPagesSampled := generalSampled
    generalPagesUnknown := saturatingSub generalAvailable generalSampled
    targetedCoverageBps := targetedBps
    generalCoverageBps := generalBps
    pageBudget := config.maxPages }

def whenTargeted (targetedMode : Bool)
    (coverage : Exec Sampling Empty TargetedObservationCoverage) :
    Exec Sampling Empty (Option TargetedObservationCoverage) :=
  if targetedMode then some <$> coverage else pure none

/-- The rest of `observe_page_residency_internal`, once the mappings are known. -/
def observeMappings (build : Build) (kernel : Kernel) (bases : Bases) (ranges : List PageRange)
    (selected : ExtTreeSet String) (config : PageObservationConfig) (targetedMode : Bool) :
    Exec Sampling Empty PageResidencySnapshot := do
  let pageSize := kernel.pageSize.toNat
  let order := orderOf selected ranges
  let population := populationOf bases selected order
  let allUniquePages := intervalUnionCount population.all
  let targetedAvailable := intervalUnionCount population.target
  let processed ← (order.take config.maxResources).mapM
    (observeRange kernel config pageSize bases selected)
  let resources := processed ++ (order.drop config.maxResources).map (omittedResource selected)
  let sampling ← self
  let inspectedPages := sampling.observed.size
  let totalPages := saturatingAdd allUniquePages population.unavailableUnknownPages
  let values := sampling.observed.toList.map Prod.snd
  let residentPages := (values.filter id).length
  let nonresidentPages := (values.filter not).length
  let unknownUnique := saturatingSub allUniquePages inspectedPages
  let targeted ← whenTargeted targetedMode
    (targetedCoverage build config selected population.target allUniquePages targetedAvailable
      resources)
  return {
    supported := true
    source := "linux mincore(/proc/self/maps)"
    pageSize := some pageSize
    inspectedPages := inspectedPages
    totalPages := totalPages
    residentPages := residentPages
    nonresidentPages := nonresidentPages
    unknownPages := saturatingAdd unknownUnique population.unavailableUnknownPages
    uniqueResidentPages := residentPages
    uniqueNonresidentPages := nonresidentPages
    uniqueUnknownPages := some unknownUnique
    sampled := resources.any (·.sampled) || inspectedPages < totalPages
    resources := resources
    targeted := targeted
    elapsedNs := kernel.elapsedNs
    unsupportedReason := none }

def observePageResidencyInternal (build : Build) (kernel : Kernel) (ranges : List PageRange)
    (selected : ExtTreeSet String) (config : PageObservationConfig) (targetedMode : Bool) :
    Exec Sampling Empty PageResidencySnapshot :=
  match kernel.maps with
  | .error text => pure (.unsupported s!"/proc/self/maps: {text}")
  | .ok maps =>
    if kernel.pageSize ≤ 0 then pure (.unsupported "page size unavailable")
    else observeMappings build kernel (basesOf maps) ranges selected config targetedMode

def observePageResidency (build : Build) (kernel : Kernel) (ranges : List PageRange)
    (config : PageObservationConfig) : Exec Sampling Empty PageResidencySnapshot :=
  observePageResidencyInternal build kernel ranges ∅ config false

def observePageResidencyTargeted (build : Build) (kernel : Kernel) (ranges : List PageRange)
    (selected : ExtTreeSet String) (config : PageObservationConfig) :
    Exec Sampling Empty PageResidencySnapshot :=
  observePageResidencyInternal build kernel ranges selected config true

end PageResidency
end Ramforge

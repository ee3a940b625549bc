/-
The K/V cache of a generation: one flat buffer of K and one of V for each layer.

A buffer holds `maxSeqLen` rows of `nKvHeads * headDim` numbers, one row for each
position.  All layers share the number of committed positions.
-/
import Ramforge.Core.Memory
import Ramforge.Rust.Rows

namespace Ramforge

open Rust Rust.Exec

structure KvCache (α : Type) where
  nLayers : Nat
  nKvHeads : Nat
  headDim : Nat
  maxSeqLen : Nat
  seqLen : Nat
  kCaches : List (List α)
  vCaches : List (List α)
  bytesPerLayer : Nat

structure KvLayout where
  elemsPerLayer : Nat
  bytesPerLayer : Nat
  totalBytes : Nat
deriving DecidableEq

/-- The answers of `try_reserve_exact`, by the order in which one call asks:
the text of an allocation error, or `none` for a granted reservation. -/
abbrev Reserve : Type := Nat → Option String

namespace KvCache

variable {α : Type}

def growChunkTokens : Nat := 256

/-- `size_of::<f32>()`. -/
def sizeOfF32 : Nat := 4

def layout (nLayers nKvHeads headDim maxSeqLen : Nat) : Except String KvLayout :=
  if nLayers = 0 ∨ nKvHeads = 0 ∨ headDim = 0 ∨ maxSeqLen = 0 then
    .error "invalid KV cache dimensions"
  else
    match (checkedMul maxSeqLen nKvHeads).bind (checkedMul · headDim) with
    | none => .error "KV cache element count overflow"
    | some elemsPerLayer =>
      match (checkedMul elemsPerLayer sizeOfF32).bind (checkedMul · 2) with
      | none => .error "KV cache per-layer byte size overflow"
      | some bytesPerLayer =>
        match checkedMul bytesPerLayer nLayers with
        | none => .error "KV cache total byte size overflow"
        | some totalBytes => .ok { elemsPerLayer, bytesPerLayer, totalBytes }

/-- `try_reserve_exact` of the `k`-th reservation. -/
def tryReserve (reserve : Reserve) (k : Nat) (label : String) : Except String Unit :=
  match reserve k with
  | none => .ok ()
  | some error => .error ("failed to reserve " ++ label ++ ": " ++ error)

def zeroedBuffer [Zero α] (reserve : Reserve) (k len : Nat) (label : String) :
    Except String (List α) := do
  tryReserve reserve k label
  return List.replicate len 0

/-- The loop over the layers of `allocate_from_layout`. -/
def zeroedLayers [Zero α] (reserve : Reserve) (elemsPerLayer : Nat) :
    Nat → Nat → Except String (List (List α) × List (List α))
  | 0, _ => return ([], [])
  | n + 1, k => do
    let kBuffer ← zeroedBuffer reserve k elemsPerLayer "KV K storage"
    let vBuffer ← zeroedBuffer reserve (k + 1) elemsPerLayer "KV V storage"
    let (kCaches, vCaches) ← zeroedLayers reserve elemsPerLayer n (k + 2)
    return (kBuffer :: kCaches, vBuffer :: vCaches)

def allocateFromLayout [Zero α] (reserve : Reserve) (nLayers nKvHeads headDim maxSeqLen : Nat)
    (layout : KvLayout) : Except String (KvCache α) := do
  tryReserve reserve 0 "KV K-layer table"
  tryReserve reserve 1 "KV V-layer table"
  let (kCaches, vCaches) ← zeroedLayers reserve layout.elemsPerLayer nLayers 2
  return {
    nLayers, nKvHeads, headDim, maxSeqLen
    seqLen := 0
    kCaches, vCaches
    bytesPerLayer := layout.bytesPerLayer }

def new [Zero α] (reserve : Reserve) (nLayers nKvHeads headDim maxSeqLen : Nat) :
    Except String (KvCache α) := do
  let l ← layout nLayers nKvHeads headDim maxSeqLen
  allocateFromLayout reserve nLayers nKvHeads headDim maxSeqLen l

def newWithBudget [Zero α] (reserve : Reserve) (nLayers nKvHeads headDim maxSeqLen : Nat)
    (chargeName : String) : Exec MemoryBudget String (KvCache α) := do
  let l ← ofResult (layout nLayers nKvHeads headDim maxSeqLen)
  mapErr (fun error => "failed to reserve KV cache: " ++ error.display)
    (MemoryBudget.allocate chargeName l.totalBytes)
  match allocateFromLayout reserve nLayers nKvHeads headDim maxSeqLen l with
  | .ok cache => return cache
  | .error error =>
    match ← attempt (MemoryBudget.release chargeName) with
    | .ok _ => throw error
    | .error rollbackError =>
      throw ("KV cache allocation failed: " ++ error ++ "; reservation rollback failed: " ++
        rollbackError.display)

def tryBytesForTokens (c : KvCache α) (tokens : Nat) : Except String Nat :=
  match ((((checkedMul tokens c.nKvHeads).bind (checkedMul · c.headDim)).bind
      (checkedMul · sizeOfF32)).bind (checkedMul · 2)).bind (checkedMul · c.nLayers) with
  | some bytes => .ok bytes
  | none => .error "KV cache byte size overflow"

/-- A slice or an index outside its bounds. -/
def outOfRange : String := "index out of range"

/-- The loop over the layers of `allocate_grown_buffers`: each old buffer in front of
the zeros of a new one. -/
def grownLayers [Zero α] (reserve : Reserve) (elemsPerLayer oldElemsPerLayer : Nat) :
    Nat → Nat → Exec (KvCache α) String (List (List α) × List (List α))
  | 0, _ => return ([], [])
  | n + 1, layer => do
    let c ← self
    let k ← ofResult (zeroedBuffer reserve (2 + 2 * layer) elemsPerLayer "grown KV K storage")
    let kOld ← expect c.kCaches[layer]? outOfRange
    let k ← expect (copyInto k 0 oldElemsPerLayer kOld) outOfRange
    let v ← ofResult (zeroedBuffer reserve (3 + 2 * layer) elemsPerLayer "grown KV V storage")
    let vOld ← expect c.vCaches[layer]? outOfRange
    let v ← expect (copyInto v 0 oldElemsPerLayer vOld) outOfRange
    let (kCaches, vCaches) ← grownLayers reserve elemsPerLayer oldElemsPerLayer n (layer + 1)
    return (k :: kCaches, v :: vCaches)

def existingElems (c : KvCache α) : Option Nat :=
  (checkedMul c.maxSeqLen c.nKvHeads).bind (checkedMul · c.headDim)

def allocateGrownBuffers [Zero α] (reserve : Reserve) (newCapacity : Nat) :
    Exec (KvCache α) String (List (List α) × List (List α) × KvLayout) := do
  let c ← self
  if newCapacity ≤ c.maxSeqLen then
    let elemsPerLayer ← okOr c.existingElems "existing KV cache element count overflow"
    let totalBytes ← ofResult (c.tryBytesForTokens c.maxSeqLen)
    return (c.kCaches, c.vCaches,
      { elemsPerLayer, bytesPerLayer := c.bytesPerLayer, totalBytes })
  else
    let l ← ofResult (layout c.nLayers c.nKvHeads c.headDim newCapacity)
    let oldElemsPerLayer ← okOr c.existingElems "existing KV cache element count overflow"
    ofResult (tryReserve reserve 0 "grown KV K-layer table")
    ofResult (tryReserve reserve 1 "grown KV V-layer table")
    let (kCaches, vCaches) ← grownLayers reserve l.elemsPerLayer oldElemsPerLayer c.nLayers 0
    return (kCaches, vCaches, l)

/-- The replacement of the buffers once they are built. -/
def replaceBuffers {ε : Type} (newCapacity : Nat)
    (buffers : List (List α) × List (List α) × KvLayout) : Exec (KvCache α) ε Unit :=
  modify fun c =>
    { c with
      kCaches := buffers.1
      vCaches := buffers.2.1
      maxSeqLen := newCapacity
      bytesPerLayer := buffers.2.2.bytesPerLayer }

def growTo [Zero α] (reserve : Reserve) (newCapacity : Nat) : Exec (KvCache α) String Unit := do
  let c ← self
  if newCapacity ≤ c.maxSeqLen then return ()
  else
    let buffers ← allocateGrownBuffers reserve newCapacity
    replaceBuffers newCapacity buffers

/-- Give a growth reservation back and report why, with the second error if that
fails too. -/
def rollbackGrowth {κ β : Type} (reservationName message note : String) :
    Exec (κ × MemoryBudget) String β := do
  match ← attempt (onSnd (MemoryBudget.release reservationName)) with
  | .ok _ => throw message
  | .error rollbackError => throw (note ++ rollbackError.display)

def growToWithBudget [Zero α] (reserve : Reserve) (newCapacity : Nat) (chargeName : String) :
    Exec (KvCache α × MemoryBudget) String Unit := do
  let s ← self
  if newCapacity ≤ s.1.maxSeqLen then return ()
  else
    let oldBytes ← ofResult (s.1.tryBytesForTokens s.1.maxSeqLen)
    let newBytes ← ofResult (s.1.tryBytesForTokens newCapacity)
    let reservationName := chargeName ++ ":growth"
    mapErr (fun error => "failed to reserve grown KV cache: " ++ error.display)
      (onSnd (MemoryBudget.allocate reservationName newBytes))
    let s ← self
    if s.2.get chargeName ≠ some oldBytes then
      let message := "existing KV cache charge '" ++ chargeName ++
        s!"' does not match physical cache size {oldBytes}"
      rollbackGrowth reservationName message
        (message ++ "; growth reservation rollback failed: ")
    else
      match ← attempt (onFst (allocateGrownBuffers reserve newCapacity)) with
      | .error error =>
        rollbackGrowth reservationName error
          ("KV cache growth failed: " ++ error ++ "; growth reservation rollback failed: ")
      | .ok buffers =>
        onFst (replaceBuffers newCapacity buffers)
        orPanic (onSnd (MemoryBudget.commitResize chargeName reservationName newBytes))
          fun error => "KV cache budget commit failed after physical replacement: " ++ error.display

/-- The numbers of one position of one layer. -/
def width (c : KvCache α) : Option Nat := checkedMul c.nKvHeads c.headDim

/-- `caches[layer][lo..hi].copy_from_slice(src)`. -/
def writeLayer {ε : Type} (caches : List (List α)) (layer lo hi : Nat) (src : List α) :
    Exec (KvCache α) ε (List (List α)) := do
  let buffer ← expect caches[layer]? outOfRange
  let buffer ← expect (copyInto buffer lo hi src) outOfRange
  return caches.set layer buffer

def append (layer : Nat) (k v : List α) : Exec (KvCache α) String Unit := do
  let c ← self
  failIf (layer ≥ c.nLayers) s!"layer {layer} out of bounds"
  failIf (c.seqLen ≥ c.maxSeqLen) "KV cache full"
  let expected ← okOr c.width "K/V element count overflow"
  failIf (k.length ≠ expected ∨ v.length ≠ expected)
    s!"K/V size mismatch: expected {expected}, got k={k.length}, v={v.length}"
  let offset ← okOr (checkedMul c.seqLen expected) "K/V cache offset overflow"
  let stop ← okOr (checkedAdd offset expected) "K/V cache slice end overflow"
  let kCaches ← writeLayer c.kCaches layer offset stop k
  modify fun c => { c with kCaches }
  let vCaches ← writeLayer c.vCaches layer offset stop v
  modify fun c => { c with vCaches }

/-- `debugAssertions` tells the two kinds of builds apart. -/
def incrementSeqLen {ε : Type} (debugAssertions : Bool) : Exec (KvCache α) ε Unit := do
  let c ← self
  expect (if debugAssertions ∧ ¬ c.seqLen < c.maxSeqLen then none else some ())
    "assertion failed: self.seq_len < self.max_seq_len"
  let seqLen ← expect (checkedAdd c.seqLen 1) "KV cache sequence length overflow"
  modify fun c => { c with seqLen }

/-- `get_k` and `get_v` on the buffers they read. -/
def getHistory {ε : Type} (caches : KvCache α → List (List α)) (name : String) (layer : Nat) :
    Exec (KvCache α) ε (List α) := do
  let c ← self
  let expected ← expect c.width "K/V element count must be representable"
  let len ← expect (checkedMul c.seqLen expected)
    (name ++ " cache history length must be representable")
  let buffer ← expect (caches c)[layer]? outOfRange
  expect (slice buffer 0 len) outOfRange

def getK {ε : Type} (layer : Nat) : Exec (KvCache α) ε (List α) := getHistory kCaches "K" layer

def getV {ε : Type} (layer : Nat) : Exec (KvCache α) ε (List α) := getHistory vCaches "V" layer

def validateReadRange (layer start stop : Nat) : Exec (KvCache α) String Unit := do
  let c ← self
  failIf (layer ≥ c.nLayers) s!"layer {layer} out of bounds"
  failIf (start > stop ∨ stop > c.seqLen)
    s!"KV read range {start}..{stop} is outside committed history 0..{c.seqLen}"
  return ()

/-- `get_k_range` and `get_v_range` on the buffers they read. -/
def getRange (caches : KvCache α → List (List α)) (name : String) (layer start stop : Nat) :
    Exec (KvCache α) String (List α) := do
  validateReadRange layer start stop
  let c ← self
  let width ← okOr c.width "K/V element count overflow"
  let startOffset ← okOr (checkedMul start width) (name ++ " cache range start overflow")
  let endOffset ← okOr (checkedMul stop width) (name ++ " cache range end overflow")
  let buffer ← expect (caches c)[layer]? outOfRange
  expect (slice buffer startOffset endOffset) outOfRange

def getKRange (layer start stop : Nat) : Exec (KvCache α) String (List α) :=
  getRange kCaches "K" layer start stop

def getVRange (layer start stop : Nat) : Exec (KvCache α) String (List α) :=
  getRange vCaches "V" layer start stop

def clear {ε : Type} : Exec (KvCache α) ε Unit := modify fun c => { c with seqLen := 0 }

end KvCache
end Ramforge

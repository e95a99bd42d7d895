import Mathlib
import WebrtcWinXp.Support.Loop

/-!
# `Vp8PartitionAggregator`

The search for the best way to put small partitions together into packets, and
the number of fragments of a large partition.  Sizes are those of a frame whose
length fits in an `int`, and costs are exact: the source has no meaning where an
`int` overflows.
-/

namespace WebrtcWinXp.Vp8

open Support

/-- `std::numeric_limits<int>::max()`. -/
def intMax : ℕ := 2147483647

/-! ## The search -/

/-- `PartitionTreeNode`, with the sizes of the partitions that follow.  Instead of
a pointer to its parent it keeps the `packet_start_` flags of itself and of its
ancestors, its own one first. -/
structure PartitionTreeNode where
  thisSize : ℕ
  sizeVector : List ℕ
  maxParentSize : ℕ
  minParentSize : ℕ
  packetStarts : List Bool

namespace PartitionTreeNode

def createRootNode (sizeVector : List ℕ) : PartitionTreeNode where
  thisSize := sizeVector.headD 0
  sizeVector := sizeVector.tail
  maxParentSize := 0
  minParentSize := intMax
  packetStarts := [true]

/-- `SetPriorMinMax`, for the root. -/
def setPriorMinMax (minSize maxSize : ℕ) (root : PartitionTreeNode) :
    PartitionTreeNode :=
  { root with
    minParentSize := minSize
    maxParentSize := maxSize }

/-- Every node that starts a packet is one more packet. -/
def numPackets (node : PartitionTreeNode) : ℕ := node.packetStarts.count true

def cost (penalty : ℕ) (node : PartitionTreeNode) : ℤ :=
  let largest : ℤ := max node.maxParentSize node.thisSize
  let smallest : ℤ :=
    if node.sizeVector = [] then min node.minParentSize node.thisSize
    else node.minParentSize
  largest - smallest + node.numPackets * penalty

def leftChild (maxSize : ℕ) (node : PartitionTreeNode) :
    Option PartitionTreeNode :=
  match node.sizeVector with
  | [] => none
  | size :: rest =>
    if node.thisSize + size ≤ maxSize then
      some
        { node with
          thisSize := node.thisSize + size
          sizeVector := rest
          packetStarts := false :: node.packetStarts }
    else none

def rightChild (node : PartitionTreeNode) : Option PartitionTreeNode :=
  match node.sizeVector with
  | [] => none
  | size :: rest =>
    if 0 < node.thisSize then
      some
        { thisSize := size
          sizeVector := rest
          maxParentSize := max node.maxParentSize node.thisSize
          minParentSize := min node.minParentSize node.thisSize
          packetStarts := true :: node.packetStarts }
    else none

/-- `GetOptimalNode`, for at most the given number of partitions that follow. -/
def optimalNode (maxSize penalty : ℕ) : ℕ → PartitionTreeNode → PartitionTreeNode
  | 0, node => node
  | depth + 1, node =>
    match node.leftChild maxSize, node.rightChild with
    | none, none => node
    | none, some right => optimalNode maxSize penalty depth right
    | some left, none => optimalNode maxSize penalty depth left
    | some left, some right =>
      let ordered :=
        if left.cost penalty ≤ right.cost penalty then (left, right)
        else (right, left)
      let first := optimalNode maxSize penalty depth ordered.1
      if ordered.2.cost penalty ≤ first.cost penalty then
        let second := optimalNode maxSize penalty depth ordered.2
        if second.cost penalty < first.cost penalty then second else first
      else first

def getOptimalNode (maxSize penalty : ℕ) (node : PartitionTreeNode) :
    PartitionTreeNode :=
  optimalNode maxSize penalty node.sizeVector.length node

/-- The loop of `FindOptimalConfiguration`, from the last partition back. -/
def configVector : List Bool → ℤ → List ℤ → List ℤ
  | [], _, config => config
  | start :: starts, packetIndex, config =>
    configVector starts (if start then packetIndex - 1 else packetIndex)
      (packetIndex :: config)

def findOptimalConfiguration (maxSize penalty : ℕ) (root : PartitionTreeNode) :
    List ℤ :=
  let opt := root.getOptimalNode maxSize penalty
  configVector opt.packetStarts (opt.numPackets - 1) []

end PartitionTreeNode

/-- What remains of the partitions, with the number of the packet of each. -/
structure MinMax where
  remaining : List (ℤ × ℕ)
  minSize : ℤ
  maxSize : ℤ

def packetOf (d : ℤ) (l : List (ℤ × ℕ)) : List (ℤ × ℕ) :=
  l.takeWhile fun x => x.1 = d

/-- One round of the loop of `CalcMinMax`. -/
def MinMax.step (s : MinMax) : Option MinMax :=
  match s.remaining with
  | [] => none
  | (d, _) :: _ =>
    let thisSize : ℤ := ((packetOf d s.remaining).map Prod.snd).sum
    some
      { remaining := s.remaining.dropWhile fun x => x.1 = d
        minSize := min s.minSize thisSize
        maxSize := max s.maxSize thisSize }

def calcMinMax (config : List ℤ) (sizeVector : List ℕ) (minSize maxSize : ℤ) :
    ℤ × ℤ :=
  let s := finish MinMax.step (·.remaining.length)
    { remaining := config.zip sizeVector
      minSize := if minSize < 0 then intMax else minSize
      maxSize := if maxSize < 0 then 0 else maxSize }
  (s.minSize, s.maxSize)

/-- The size of the largest of `n` fragments. -/
def fragmentSize (largePartitionSize n : ℕ) : ℕ :=
  (largePartitionSize + n - 1) / n

/-- The cost of `n` fragments. -/
def fragmentsCost (largePartitionSize penalty : ℕ) (minSize maxSize : ℤ) (n : ℕ) :
    ℤ :=
  let size : ℤ := fragmentSize largePartitionSize n
  if size < minSize then minSize - size + n * penalty
  else if maxSize < size then size - maxSize + n * penalty
  else n * penalty

def calcNumberOfFragments (largePartitionSize maxPayloadSize penalty : ℕ)
    (minSize maxSize : ℤ) : ℤ :=
  let minNumberOfFragments := fragmentSize largePartitionSize maxPayloadSize
  if minSize < 0 ∨ maxSize < 0 then minNumberOfFragments
  else
    let maxNumberOfFragments := fragmentSize largePartitionSize minSize.toNat
    let best : ℤ × ℤ :=
      (List.range' minNumberOfFragments
        (maxNumberOfFragments + 1 - minNumberOfFragments)).foldl
        (fun best n =>
          let cost := fragmentsCost largePartitionSize penalty minSize maxSize n
          if fragmentSize largePartitionSize n ≤ maxPayloadSize ∧ cost < best.2
            then (n, cost) else best)
        (-1, intMax)
    best.1

end WebrtcWinXp.Vp8

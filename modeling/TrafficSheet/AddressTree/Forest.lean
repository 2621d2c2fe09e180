import TrafficSheet.Bytes

/-!
# Forests of counted paths

A forest holds the nodes below a common parent, one for each byte, in ascending order. A
node counts the addresses that ended at it, and in its total also those that passed
through. An entry is a node that addresses ended at: a full address, or a shorter path
that stands for all addresses that start with it and has no nodes below it any more.

A forest is built of its first node: the nodes below that one, and the nodes beside it.
So one induction goes both down and along.

A node may be folded if it holds at least two entries and each node right below it holds
exactly one. One walk over a forest, the nodes below a node before the node itself, counts
the entries and keeps the foldable node with the smallest total; of equal totals the first
one met stays.
-/

namespace TrafficSheet

/-- Nodes with a common parent, in ascending order of their bytes. -/
inductive Forest where
  /-- No node. -/
  | empty
  /-- A first node with its byte, how many addresses reached it and how many ended at it,
  the nodes below it and the nodes beside it. -/
  | node (byte : UInt8) (total count : Nat) (below beside : Forest)
  deriving DecidableEq

/-- A node without its byte. -/
structure Forest.Node where
  /-- How many addresses reached the node. -/
  total : Nat
  /-- How many addresses ended at the node. -/
  count : Nat
  /-- The nodes below it. -/
  below : Forest
  deriving DecidableEq

namespace Forest

/-- Whether there is no node. -/
def isEmpty : Forest → Bool
  | .empty => true
  | .node .. => false

/-! ### What a forest holds -/

/-- The entries of the forest with their paths and counts, a node before those below it
and those below it before those beside it. -/
def entries : Forest → List (Bytes × Nat)
  | .empty => []
  | .node byte _ count below beside =>
    (if 0 < count then [([byte], count)] else [])
      ++ below.entries.map (fun entry => (byte :: entry.1, entry.2)) ++ beside.entries

/-- How many entries the forest holds, a node with nodes below it not counting itself. -/
def entryCount : Forest → Nat
  | .empty => 0
  | .node _ _ count below beside =>
    (if below.isEmpty then (if 0 < count then 1 else 0) else below.entryCount) + beside.entryCount

/-- The entries at and below a node with their paths from it. -/
def Node.entries (n : Node) : List (Bytes × Nat) :=
  (if 0 < n.count then [([], n.count)] else []) ++ n.below.entries

/-- How many entries stand at or below a node. -/
def Node.entryCount (n : Node) : Nat :=
  if n.below.isEmpty then (if 0 < n.count then 1 else 0) else n.below.entryCount

/-- The node that a path leads to. -/
def find? : Bytes → Forest → Option Node
  | [], _ => none
  | _ :: _, .empty => none
  | byte :: rest, .node own total count below beside =>
    if byte = own then
      match rest with
      | [] => some ⟨total, count, below⟩
      | _ :: _ => find? rest below
    else find? (byte :: rest) beside

/-- The node that a path from a node leads to. -/
def Node.find? (path : Bytes) (n : Node) : Option Node :=
  if path.isEmpty then some n else n.below.find? path

/-- How many addresses ended at the entry that an address belongs to; zero if there is
none yet. -/
def hits : Bytes → Forest → Nat
  | [], _ => 0
  | _ :: _, .empty => 0
  | byte :: rest, .node own _ count below beside =>
    if byte = own then
      if rest.isEmpty || below.isEmpty then count else hits rest below
    else hits (byte :: rest) beside

/-- How many addresses ended at the entry that an address passing through a node belongs
to; zero if there is none yet. -/
def Node.hits (address : Bytes) (n : Node) : Nat :=
  if address.isEmpty || n.below.isEmpty then n.count else n.below.hits address

/-! ### Counting an address -/

/-- A node that no address reached yet. -/
def Node.fresh : Node := ⟨0, 0, .empty⟩

/-- The nodes of an address that shares none with a forest, in front of that forest. -/
def sprout : Bytes → Forest → Forest
  | [], beside => beside
  | [byte], beside => .node byte 1 1 .empty beside
  | byte :: next :: rest, beside => .node byte 1 0 (sprout (next :: rest) .empty) beside

/-- Counts an address. It ends at its last byte, or earlier at an entry that stands for
all addresses below it. -/
def insert : Bytes → Forest → Forest
  | [], forest => forest
  | byte :: rest, .empty => sprout (byte :: rest) .empty
  | byte :: rest, .node own total count below beside =>
    if byte < own then sprout (byte :: rest) (.node own total count below beside)
    else if own < byte then .node own total count below (insert (byte :: rest) beside)
    else if rest.isEmpty || (below.isEmpty && 0 < count) then
      .node own (total + 1) (count + 1) below beside
    else .node own (total + 1) count (insert rest below) beside

/-- Counts an address that passes through a node, or ends at it. -/
def Node.insert (address : Bytes) (n : Node) : Node :=
  if address.isEmpty || (n.below.isEmpty && 0 < n.count) then
    { n with total := n.total + 1, count := n.count + 1 }
  else { n with total := n.total + 1, below := n.below.insert address }

/-! ### Folding a node -/

/-- Replaces the node at a path, and all below it, by one entry that has all its addresses. -/
def fold : Bytes → Forest → Forest
  | [], forest => forest
  | _ :: _, .empty => .empty
  | byte :: rest, .node own total count below beside =>
    if byte = own then
      if rest.isEmpty then .node own total total .empty beside
      else .node own total count (fold rest below) beside
    else .node own total count below (fold (byte :: rest) beside)

/-- Replaces the node at a path from a node by one entry. -/
def Node.fold (path : Bytes) (n : Node) : Node :=
  if path.isEmpty then ⟨n.total, n.total, .empty⟩ else { n with below := n.below.fold path }

end Forest

/-! ### Looking for the cheapest node to fold -/

/-- A node that may be folded. -/
structure FoldCandidate where
  /-- The length of the addresses in its tree. -/
  family : Nat
  /-- The path to it. -/
  path : Bytes
  /-- How many addresses reached it, which is what folding it costs. -/
  total : Nat
  deriving DecidableEq

/-- What a walk carries along. -/
structure Walk where
  /-- The bytes on the way to the node that the walk is at, the last one first. -/
  trail : Bytes
  /-- The cheapest candidate met so far. -/
  best? : Option FoldCandidate
  deriving DecidableEq

namespace Walk

/-- Steps down to a node. -/
def enter (byte : UInt8) (w : Walk) : Walk := { w with trail := byte :: w.trail }

/-- Steps back up. -/
def leave (w : Walk) : Walk := { w with trail := w.trail.tail }

/-- Offers the node that the walk is at; only a smaller total beats an earlier candidate. -/
def offer (family total : Nat) (w : Walk) : Walk :=
  if w.best?.all (fun best => total < best.total) then
    { w with best? := some ⟨family, w.trail.reverse, total⟩ }
  else w

end Walk

/-- What a walk found among the nodes that it visited. -/
structure Forest.Visit where
  /-- How many entries they hold together. -/
  entries : Nat
  /-- Whether each of them holds exactly one. -/
  allSingle : Bool
  /-- The walk after them. -/
  walk : Walk
  deriving DecidableEq

/-- Visits the nodes of a forest and all below them. -/
def Forest.visit (family : Nat) : Forest → Walk → Forest.Visit
  | .empty, w => ⟨0, true, w⟩
  | .node byte total count below beside, w =>
    let inner := below.visit family (w.enter byte)
    let entries := if below.isEmpty then (if 0 < count then 1 else 0) else inner.entries
    let offered :=
      if 2 ≤ inner.entries ∧ inner.allSingle = true then inner.walk.offer family total
      else inner.walk
    let others := beside.visit family offered.leave
    ⟨entries + others.entries, entries == 1 && others.allSingle, others.walk⟩

end TrafficSheet

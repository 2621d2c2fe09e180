import TrafficSheet.AddressTree.Forest

/-!
# The address tree

Addresses are counted by family, which is their length in bytes, along the bytes from the
first to the last. The tree holds a bounded number of entries: when a new address exceeds
the bound, the cheapest foldable node becomes one entry that stands for its whole path, and
takes every later address below it. A family's root is never folded, so an address alone
under its first byte keeps its own entry, and the bound may be exceeded when every entry
stands so.

An entry is shown by a label. Four bytes are written as decimal numbers with dots. Sixteen
bytes are written as groups of four hexadecimal digits without leading zeros, the longest run
of zero groups, if it has two or more, shortened to two colons; an address that maps one of
four bytes ends in that one's dotted form. Addresses of other lengths are pairs of hexadecimal
digits with colons. A path shorter than its family is filled up with zeros and followed by its
length in bits.

What is not formalized: the words that counts are kept in. A count is at most the number of
packets, and is a natural number here.
-/

namespace TrafficSheet

/-- The addresses of one length. -/
structure AddressFamily where
  /-- The length of the addresses in bytes. -/
  length : Nat
  /-- The node that all of them pass through, with those of their first bytes below it. -/
  root : Forest.Node
  deriving DecidableEq

namespace AddressFamily

/-- Counts an address in the family of its length; families stay in ascending order. -/
def insertInto (address : Bytes) : List AddressFamily → List AddressFamily
  | [] => [⟨address.length, Forest.Node.fresh.insert address⟩]
  | family :: others =>
    if address.length < family.length then
      ⟨address.length, Forest.Node.fresh.insert address⟩ :: family :: others
    else if family.length < address.length then family :: insertInto address others
    else { family with root := family.root.insert address } :: others

/-- The root of the family of the given length. -/
def rootOf (length : Nat) (families : List AddressFamily) : Forest.Node :=
  match families.find? (·.length == length) with
  | some family => family.root
  | none => .fresh

/-- Folds the node at a path in the family of the given length. -/
def foldIn (length : Nat) (path : Bytes) (families : List AddressFamily) : List AddressFamily :=
  families.map fun family =>
    if family.length = length then { family with root := family.root.fold path } else family

/-- The cheapest node that may be folded, over all families. Roots are not visited. -/
def cheapest? (families : List AddressFamily) : Option FoldCandidate :=
  families.foldl
    (fun best? family => (family.root.below.visit family.length ⟨[], best?⟩).walk.best?) none

end AddressFamily

/-- An entry of the tree. -/
structure AddressEntry where
  /-- The length of the addresses that it stands for. -/
  family : Nat
  /-- The bytes that they start with; all of them for a single address. -/
  path : Bytes
  /-- How often they occurred. -/
  count : Nat
  deriving DecidableEq

/-- Counted addresses of any lengths, with a bound on the number of entries. -/
structure AddressTree where
  /-- The families in ascending order of length. -/
  families : List AddressFamily
  /-- How many entries there may be before nodes are folded. -/
  limit : Nat
  /-- How many entries there are. -/
  leafCount : Nat
  /-- How many addresses were counted. -/
  total : Nat
  deriving DecidableEq

namespace AddressTree

/-- The bound of a tree that is given none. -/
def defaultLimit : Nat := 1024

/-- A tree without addresses; its bound is at least one entry. -/
def empty (limit : Nat) : AddressTree where
  families := []
  limit := max limit 1
  leafCount := 0
  total := 0

/-- The entries in ascending order of family and path. -/
def entries (t : AddressTree) : List AddressEntry :=
  t.families.flatMap fun family =>
    family.root.entries.map fun entry => ⟨family.length, entry.1, entry.2⟩

/-- The cheapest node that may be folded. -/
def cheapest? (t : AddressTree) : Option FoldCandidate := AddressFamily.cheapest? t.families

/-- Folds the cheapest node that may be folded, if there is one. -/
def foldCheapest? (t : AddressTree) : Option AddressTree := do
  let candidate ← t.cheapest?
  let node ← (AddressFamily.rootOf candidate.family t.families).find? candidate.path
  return { t with
    families := AddressFamily.foldIn candidate.family candidate.path t.families
    leafCount := t.leafCount + 1 - node.entryCount }

/-- Folds nodes until the entries fit the bound or none can be folded, at most `rounds` times. -/
def shrink : Nat → AddressTree → AddressTree
  | 0, t => t
  | rounds + 1, t =>
    if t.leafCount ≤ t.limit then t
    else
      match t.foldCheapest? with
      | some folded => shrink rounds folded
      | none => t

/-- Folds nodes until the entries fit the bound or none can be folded. Each fold leaves
fewer entries, so there are no more rounds than entries above the bound. -/
def prune (t : AddressTree) : AddressTree := shrink (t.leafCount - t.limit) t

/-- Whether an entry stands for an address already. -/
def knows (t : AddressTree) (address : Bytes) : Bool :=
  0 < (AddressFamily.rootOf address.length t.families).hits address

/-- The tree with an address counted and nothing folded yet. Only an address that no entry
stood for makes a new one. -/
def counted (t : AddressTree) (address : Bytes) : AddressTree where
  families := AddressFamily.insertInto address t.families
  limit := t.limit
  leafCount := if t.knows address then t.leafCount else t.leafCount + 1
  total := t.total + 1

/-- Counts an address, and folds if that made a new entry; one without bytes is ignored. -/
def add (t : AddressTree) (address : Bytes) : AddressTree :=
  if address.isEmpty then t
  else if t.knows address then t.counted address
  else (t.counted address).prune

/-- Counts addresses one after another. -/
def addAll (t : AddressTree) (addresses : List Bytes) : AddressTree := addresses.foldl add t

end AddressTree

end TrafficSheet

/-! ### Texts of addresses and prefixes -/

namespace TrafficSheet.AddressLabel

/-- Four bytes as decimal numbers with dots. -/
def dotted (bytes : Bytes) : String := ".".intercalate (bytes.map fun byte => toString byte.toNat)

/-- The numbers of two bytes that an address consists of, a last single byte left out. -/
def groups : Bytes → List Nat
  | high :: low :: rest => (high.toNat * 256 + low.toNat) :: groups rest
  | _ => []

/-- Groups as hexadecimal numbers with colons. -/
def colons (l : List Nat) : String :=
  ":".intercalate (l.map fun group => String.ofList (Nat.toDigits 16 group))

/-- How many zeros the list starts with. -/
def zeroRun (l : List Nat) : Nat := (l.takeWhile (· == 0)).length

/-- The start and the length of the longest run of zeros; of equally long ones the first. -/
def longestZeroRun : List Nat → Nat × Nat
  | [] => (0, 0)
  | group :: rest =>
    let here := zeroRun (group :: rest)
    let later := longestZeroRun rest
    if later.2 ≤ here then (0, here) else (later.1 + 1, later.2)

/-- Eight groups, the longest run of two or more zeros shortened. -/
def shortened (l : List Nat) : String :=
  let run := longestZeroRun l
  if 2 ≤ run.2 then colons (l.take run.1) ++ "::" ++ colons (l.drop (run.1 + run.2))
  else colons l

/-- The text of a sixteen-byte address. -/
def ipv6 (bytes : Bytes) : String :=
  if (bytes.take 10).all (· == 0) && (bytes.field 10 2).all (· == 255) then
    "::ffff:" ++ dotted (bytes.drop 12)
  else shortened (groups bytes)

/-- The text of a full address of the given length. -/
def full (family : Nat) (bytes : Bytes) : String :=
  if family = 4 then dotted bytes
  else if family = 16 then ipv6 bytes
  else ":".intercalate (bytes.map Bytes.hexPair)

/-- The text of a path in a family. -/
def ofPath (family : Nat) (path : Bytes) : String :=
  let filled := path.take family ++ List.replicate (family - path.length) 0
  if path.length < family then full family filled ++ "/" ++ toString (path.length * 8)
  else full family filled

end TrafficSheet.AddressLabel

namespace TrafficSheet

/-- The text of an entry's path. -/
def AddressEntry.label (e : AddressEntry) : String := AddressLabel.ofPath e.family e.path

end TrafficSheet

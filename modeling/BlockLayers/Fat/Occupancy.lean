import BlockLayers.Fat.Volume
import Std.Data.HashSet

/-!
# `BlockLayers.Fat.Occupancy`: counting entries and checking chains

Every entry that has a data block is on exactly one chain, that of one
file or the free chain. `Volume.occupancy` follows every chain, counts
its entries and checks that this is so: no entry is reached twice, none
lies behind the data blocks, every file has as many entries as its
record says, and no entry is left over. The first contradiction ends
the count with the damage that it shows.

Each entry is claimed at most once, so a chain that runs into a circle
is found out as soon as it comes back (`Volume.followClaiming`).
-/

set_option autoImplicit false

namespace BlockLayers.Fat

/-- How many entries of a file system are in use. -/
structure Occupancy where
  /-- The number of entries, one for each data block. -/
  total : UInt32
  /-- Those on the free chain. -/
  free : UInt32
  /-- Those on the chains of files. -/
  used : UInt32
  deriving DecidableEq, Repr

/-- The entries that a count has reached, and how many are left. -/
structure Claims where
  /-- The entries that have a data block. -/
  total : Nat
  /-- The entries reached so far. -/
  claimed : Std.HashSet UInt32

namespace Volume

variable {σ : Type} [Journal σ]

/-- Follow a chain to its end and claim its entries, `unclaimed` of
which are left. Returns the number of entries on the chain. -/
def followClaiming (below : Store σ) (unclaimed : Nat) (entry : Link) (claims : Claims)
    (count : Nat) : Op (Cursor × σ) (Nat × Claims) := do
  if entry.isEnd then
    return (count, claims)
  if claims.total ≤ entry.word.toNat then
    Op.fail (.corrupted .beyondData)
  if claims.claimed.contains entry.word then
    claimedAgain entry
  else
    match unclaimed with
    -- All entries are claimed, and this is one of them.
    | 0 => claimedAgain entry
    | left + 1 => do
      let claims := { claims with claimed := claims.claimed.insert entry.word }
      let after ← Cursor.next below entry
      followClaiming below left after claims (count + 1)
where
  /-- Fail because an entry was reached before. -/
  claimedAgain (entry : Link) : Op (Cursor × σ) (Nat × Claims) := do
    Op.note (.claimedTwice entry)
    Op.fail (.corrupted .claimedTwice)

/-- Claim the entries of a chain. Returns how many there are. -/
def claimChain (below : Store σ) (head : Link) (claims : Claims) :
    Op (Cursor × σ) (Nat × Claims) :=
  followClaiming below (claims.total - claims.claimed.size) head claims 0

/-- Claim the chains of the files whose records stand at the given
places of a block, and count their entries. -/
def claimRecords (below : Store σ) (number : UInt32) (block : Block) :
    List (Fin 64) → Claims → Nat → Op (Cursor × σ) (Nat × Claims)
  | [], claims, used => return (used, claims)
  | place :: rest, claims, used => do
    let record := recordAt block place
    let (count, claims) ← claimChain below record.head claims
    if count ≠ record.blocks.toNat then
      if ← Op.keeps .error then
        let first ← Checked.mul (number - 1) 64
        let ino ← Checked.add first (UInt32.ofNat place.val)
        Op.note (.lengthMismatch ino record.blocks count)
      Op.fail (.corrupted .lengthMismatch)
    claimRecords below number block rest claims (used + count)

/-- Claim the chains of all files, from one block of records on. -/
def claimFiles (v : Volume) (below : Store σ) :
    Nat → UInt32 → Claims → Nat → Op (Cursor × σ) (Nat × Claims)
  | 0, _, claims, used => return (used, claims)
  | left + 1, number, claims, used => do
    let block ← Op.lower (v.readBlock below number)
    let (used, claims) ← claimRecords below number block (List.finRange 64) claims used
    claimFiles v below left (number + 1) claims used

/-- Count the entries of a medium of `blocks` blocks. -/
def countEntries (v : Volume) (below : Store σ) (sb : Superblock) (total : UInt32) :
    Op (Cursor × σ) Occupancy := do
  let claims : Claims := ⟨total.toNat, ∅⟩
  let (free, claims) ← claimChain below sb.freeHead claims
  let (used, _) ← v.claimFiles below sb.recordBlocks.toNat 1 claims 0
  -- What was counted are different entries below `total`, so the difference is not cut off at zero.
  if free + used ≠ total.toNat then
    Op.note (.orphaned (total.toNat - free - used) total.toNat)
    Op.fail (.corrupted .orphaned)
  return ⟨total, UInt32.ofNat free, UInt32.ofNat used⟩

/-- How many entries are in use, after a check of every chain. -/
def occupancy (v : Volume) (below : Store σ) : Op σ Occupancy := do
  let sb ← v.superblock below
  let blocks ← below (.size v.medium)
  let start ← sb.dataStart
  if blocks < start then
    Op.fail (.corrupted .truncatedMedium)
  let cursor ← Cursor.open_ v.medium sb
  let (counted, _) ← Op.withOwn cursor (v.countEntries below sb (blocks - start))
  return counted

end Volume

end BlockLayers.Fat

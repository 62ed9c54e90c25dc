import LogRelay.Chain.Log
import LogRelay.Chain.Job

/-!
# What a marker is about

A marker says that a job has processed a log.  The log is known by the hash of its
block and its place in the block; its other parts do not matter.

The written form of a key is a tag for the scheme of the job, the hash, the place as
eight bytes and the job, so that the keys of one scheme are ordered by block, then by
place, then by job.
-/

namespace LogRelay

/-- Which job has processed which log. -/
structure MarkerKey where
  blockHash : Hash
  /-- The place of the log in its block. -/
  logIndex : UInt64
  job : JobIdentity
deriving DecidableEq, Inhabited

namespace MarkerKey

/-- The tag of the scheme of a job. -/
def tag : JobIdentity → UInt8
  | .v1 _ => 1
  | .v2 _ => 2

/-- The written form of a job, whose length depends on the scheme. -/
def jobBytes : JobIdentity → Bytes
  | .v1 id => id.bytes
  | .v2 id => Bytes.ofNat 4 id.toUInt32.toNat

/-- The written form of a key. -/
def encode (key : MarkerKey) : Bytes :=
  tag key.job :: (key.blockHash.bytes ++ (Bytes.ofNat 8 key.logIndex.toNat ++ jobBytes key.job))

end MarkerKey

end LogRelay

import BlockLayers.Main
import BlockLayers.Session
import BlockLayers.Proofs.Durable
import BlockLayers.Proofs.Fat.Provenance
import BlockLayers.Proofs.Fat.Refused
import BlockLayers.Proofs.Mirror.Consistent
import BlockLayers.Proofs.Pool.Rest
import BlockLayers.Proofs.Cache.Coherent
import BlockLayers.Proofs.Mirror.Lockstep
import BlockLayers.Proofs.Fat.Nested
import BlockLayers.Proofs.Room
import BlockLayers.Proofs.Mirror.Visits
import BlockLayers.Proofs.Fat.Attempts
import BlockLayers.Proofs.Fat.Codec
import BlockLayers.Proofs.Fat.Confined
import BlockLayers.Proofs.Fat.Astray
import BlockLayers.Proofs.Fat.Tiling
import BlockLayers.Proofs.Fat.Truncated
import BlockLayers.Proofs.Fat.WriteBack
import BlockLayers.Proofs.Cache.Filling
import BlockLayers.Proofs.Cache.Flushes
import BlockLayers.Proofs.Cache.Traffic
import BlockLayers.Proofs.Image.Memory
import BlockLayers.Proofs.Image.Reopened

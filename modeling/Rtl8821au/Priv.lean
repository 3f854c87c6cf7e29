import Rtl8821au.Recv.Frame
import Rtl8821au.Security.Aes

/-!
# The state of the interface

What the transmit and receive paths read of `struct rtl_priv` without writing it: the
mode, the addresses, the security settings and the station table. It changes between
packets, by commands and by received management frames.

`WIFI_MP_STATE` is never set; its branches are left out.
-/

namespace Rtl8821au

open Recv (Bytes MacAddr Encryption isMulticast)
open Security (Block)

/-- The bits of `fw_state` (`rtw_mlme.h`, lines 45–52) that the data path tests. -/
structure FwState where
  station : Bool := false
  ap : Bool := false
  adhoc : Bool := false
  adhocMaster : Bool := false
  linked : Bool := false
  underLinking : Bool := false
  deriving DecidableEq, Repr

/-- `enum dot11AuthAlgrthmNum` (`rtw_mlme.h`, lines 92–99). -/
inductive AuthAlgrthm where
  | openSystem
  | shared
  | ieee8021X
  | auto
  | wapi
  deriving DecidableEq, Repr

/-- What the data path reads of `struct sta_info`. -/
structure StaInfo where
  linked : Bool := true
  ieee8021xBlocked : Bool := false
  dot118021XPrivacy : Encryption := .noPrivacy
  dot118021xUncstKey : Block := Vector.replicate 16 0
  dot11tkiptxmickey : Bytes := List.replicate 16 0
  dot11tkiprxmickey : Bytes := List.replicate 16 0
  qosOption : Bool := false
  deriving DecidableEq, Repr

/-- `struct rtl_priv`. `lookup` finds the station with a unicast address, `bcmc` is the
    station for group addresses, `sta` the table of stations. -/
structure RtlPriv where
  fwState : FwState := {}
  myhwaddr : MacAddr := Vector.replicate 6 0
  mybssid : MacAddr := Vector.replicate 6 0
  lookup : MacAddr → Option ℕ := fun _ => none
  bcmc : ℕ := 0
  sta : ℕ → StaInfo := fun _ => {}
  dot11AuthAlgrthm : AuthAlgrthm := .openSystem
  dot11PrivacyAlgrthm : Encryption := .noPrivacy
  dot11PrivacyKeyIndex : ℕ := 0
  dot11DefKey : ℕ → Block := fun _ => Vector.replicate 16 0
  dot11DefKeylen : ℕ → ℕ := fun _ => 5
  dot118021XGrpPrivacy : Encryption := .noPrivacy
  dot118021XGrpKeyid : ℕ := 0
  dot118021XGrpKey : ℕ → Block := fun _ => Vector.replicate 16 0
  dot118021XGrptxmickey : ℕ → Bytes := fun _ => List.replicate 16 0
  binstallGrpkey : Bool := false
  bcheckGrpkey : Bool := false
  busetkipkey : Bool := false
  swEncrypt : Bool := false
  swDecrypt : Bool := false
  hwDecrypted : Bool := false
  htOption : Bool := false
  qosOption : Bool := false
  mlmeKeyIndex : ℕ := 0

namespace RtlPriv

variable (priv : RtlPriv)

/-- `rtw_get_stainfo` (`rtw_sta_mgt.c`, lines 587–627). -/
def rtwGetStainfo (hwaddr : MacAddr) : Option ℕ :=
  if isMulticast hwaddr then some priv.bcmc else priv.lookup hwaddr

/-- `GET_ENCRY_ALGO` (`rtw_security.h`, lines 181–200). -/
def getEncryAlgo (psta : ℕ) (bmcst : Bool) : Encryption :=
  match priv.dot11AuthAlgrthm with
  | .openSystem | .shared | .auto | .wapi => priv.dot11PrivacyAlgrthm
  | .ieee8021X =>
    if bmcst then priv.dot118021XGrpPrivacy else (priv.sta psta).dot118021XPrivacy

end RtlPriv

end Rtl8821au

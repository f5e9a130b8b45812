import SwitchLdnZt.Scripts.LdnMain

namespace SwitchLdnZt.Proofs.LdnStops
open Library Scripts LdnPatch

end SwitchLdnZt.Proofs.LdnStops

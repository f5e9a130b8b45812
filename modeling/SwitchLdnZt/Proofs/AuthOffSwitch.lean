import SwitchLdnZt.Proofs.AuthRerun
import SwitchLdnZt.Proofs.PhyOffSwitch

namespace SwitchLdnZt.Proofs.AuthOffSwitch
open Library Preprocess CTokens Scripts LwipThread SwitchPhy AuthTrace AuthRerun OffSwitch
open PhyOffSwitch

variable {m : Macros switch} {t t₁ t₂ a : Tree} {p : Path} {s s₁ s' : Text}

end SwitchLdnZt.Proofs.AuthOffSwitch

import SwitchLdnZt.Library.Run

namespace SwitchLdnZt.Library

variable {σ ε β : Type} {step : σ → ε → Option σ} {obs : σ → ε → σ → List β}

end SwitchLdnZt.Library

import Herden.Proofs.Integration.Codex
import Herden.Proofs.Integration.Kimi

/-!
# `Herden.Proofs.Integration.TomlEdit`: the TOML edits lose no lines
-/

namespace Herden.Proofs.Integration

open Herden.Lib
open Herden.Lib.Text
open Herden.Runtime.Integration
open Herden.Runtime.Integration.TomlEdit
open Herden.Proofs.Integration.Codex
open Herden.Proofs.Integration.Kimi

end Herden.Proofs.Integration

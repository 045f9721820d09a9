import PqcVault.Lib.Outcome
import PqcVault.Lib.Text
import PqcVault.Lib.Hex
import PqcVault.Lib.Base64
import PqcVault.Kem
import PqcVault.Dsa
import PqcVault.Lib.Word
import PqcVault.Plaintext
import PqcVault.Serial
import PqcVault.Pem
import PqcVault.Hybrid
import PqcVault.Lib.Utf8
import PqcVault.Cli
import PqcVault.PemText
import PqcVault.Sample
import PqcVault.Panics
import PqcVault.Reach
import PqcVault.Persist
import PqcVault.Wire
import PqcVault.CliSpec
import PqcVault.CliFiles
import PqcVault.CliFlow
import PqcVault.Acts
import PqcVault.Format
import PqcVault.Layout
import PqcVault.PubPath
import PqcVault.Inspect
import PqcVault.Lib.X25519
import PqcVault.Malleability
import PqcVault.CliJob
import PqcVault.CliMeaning
import PqcVault.CliFaults
import PqcVault.CliOrder
import PqcVault.CliPanics
import PqcVault.Exit
import PqcVault.Provenance
import PqcVault.Custody
import PqcVault.Contribution
import PqcVault.Lib.LowOrder
import PqcVault.Lib.Members
import PqcVault.BundleText
import PqcVault.Sealed
import PqcVault.Recovery
import PqcVault.Utils
import PqcVault.Refusals

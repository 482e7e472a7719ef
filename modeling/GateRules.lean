import GateRules.Admission
import GateRules.Config.Json
import GateRules.Config.Toml
import GateRules.Notation.Write
import GateRules.Proofs.Admitting
import GateRules.Proofs.Agreement
import GateRules.Proofs.Answering
import GateRules.Proofs.Building
import GateRules.Proofs.Configuring
import GateRules.Proofs.Covering
import GateRules.Proofs.Decoding
import GateRules.Proofs.Drafts
import GateRules.Proofs.Encoding
import GateRules.Proofs.Escaping
import GateRules.Proofs.Grammar
import GateRules.Proofs.Growing
import GateRules.Proofs.Indexing
import GateRules.Proofs.Isolation
import GateRules.Proofs.Joining
import GateRules.Proofs.Members
import GateRules.Proofs.Merging
import GateRules.Proofs.Passing
import GateRules.Proofs.Places
import GateRules.Proofs.Quoting
import GateRules.Proofs.Reading
import GateRules.Proofs.Rearranging
import GateRules.Proofs.Refusing
import GateRules.Proofs.Registering
import GateRules.Proofs.Repeating
import GateRules.Proofs.Seams
import GateRules.Proofs.Spacing
import GateRules.Proofs.Spelling
import GateRules.Proofs.Stopping
import GateRules.Proofs.Telling
import GateRules.Proofs.Tokens
import GateRules.Proofs.Values
import GateRules.Proofs.Writing
import GateRules.Registry

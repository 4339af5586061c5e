import ObscuraProto.Library.Lexing

/-
  The text by which the server knows the peer of a connection.

  `get_remote_ip` returns what `get_remote_endpoint` gives: the
  address, a colon and the source port, or "unknown" when the
  connection is gone.  The address is found again in front of
  the last colon, since the digits of a port hold none.

  Key definitions include:
    * `RemoteEndpoint`, `RemoteEndpoint.text`
    * `remoteAddress`

  Key theorems include:
    * `RemoteEndpoint.remoteAddress_text`
-/

namespace ObscuraProto

/- The peer of a connection, with its source port. -/
structure RemoteEndpoint where
  address : String
  port : UInt16
deriving DecidableEq

/- The text of `get_remote_endpoint`. -/
def RemoteEndpoint.text (peer : RemoteEndpoint) : String :=
  peer.address ++ ":" ++ toString peer.port.toNat

/- The address in such a text; a text without a port is one. -/
def remoteAddress (text : String) : String :=
  match text.toList.rdropWhile (· != ':') with
  | [] => text
  | front => String.ofList front.dropLast

theorem colon_notMem_digits (n : Nat) :
    ':' ∉ Nat.toDigits 10 n := by
  intro hMem
  have hDigit : (':').isDigit = true :=
    Nat.isDigit_of_mem_toDigits (by decide) (by decide) hMem
  exact absurd hDigit (by decide)

/- The port does not matter for the address. -/
theorem RemoteEndpoint.remoteAddress_text
    (peer : RemoteEndpoint) :
    remoteAddress peer.text = peer.address := by
  have hText :
      peer.text.toList =
        peer.address.toList ++
          ':' :: Nat.toDigits 10 peer.port.toNat := by
    simp [text]
  have hFront :
      peer.text.toList.rdropWhile (· != ':') =
        peer.address.toList ++ [':'] := by
    rw [hText]
    exact Lexing.rdropWhile_separator _ (colon_notMem_digits _)
  unfold remoteAddress
  rw [hFront]
  split
  · next hEmpty => simp at hEmpty
  · rw [List.dropLast_concat, String.ofList_toList]

end ObscuraProto

import Dalin.Library.Printf
import Dalin.Net.TcpServer

/-!
# Addresses and connection names in text

An `InetAddress` keeps its numbers in network byte order and is printed as
`host:port`. The text names a server, and with a number behind it a connection.
This file embeds the conversions in both directions and shows that the texts are
whole and can be read back, so that different addresses and connections have
different ones.
-/

set_option autoImplicit false

namespace Dalin.Net

open Printf

/-- A field of two bytes in network byte order. -/
structure Network16 where
  high : BitVec 8
  low : BitVec 8
  deriving DecidableEq

/-- A field of four bytes in network byte order. -/
structure Network32 where
  a : BitVec 8
  b : BitVec 8
  c : BitVec 8
  d : BitVec 8
  deriving DecidableEq

/-- `struct sockaddr_in` of the family `AF_INET`. -/
structure SockAddrIn where
  sinPort : Network16
  sinAddr : Network32
  deriving DecidableEq

namespace SocketsOps

/-- `SocketsOps::hostToNetwork16`. -/
def hostToNetwork16 (host : BitVec 16) : Network16 :=
  ⟨BitVec.ofNat 8 (host.toNat / 256), BitVec.ofNat 8 (host.toNat % 256)⟩

/-- `SocketsOps::networkToHost16`. -/
def networkToHost16 (net : Network16) : BitVec 16 :=
  BitVec.ofNat 16 (net.high.toNat * 256 + net.low.toNat)

/-- `inet_ntop`, for a buffer of `size` bytes; it fails if the text does not fit. -/
def inet_ntop (size : ℕ) (addr : Network32) : Option (List Char) :=
  let text := ['.'].intercalate
    [unsigned addr.a.toNat, unsigned addr.b.toNat, unsigned addr.c.toNat, unsigned addr.d.toNat]
  if text.length < size then some text else none

/-- A field of a text that `inet_pton` accepts: a number up to 255, without a zero in front. -/
def octet (text : List Char) : Option (BitVec 8) :=
  if Numeral text ∧ Nat.ofDigitChars 10 text 0 ≤ 255 then
    some (BitVec.ofNat 8 (Nat.ofDigitChars 10 text 0))
  else none

/-- `inet_pton`. -/
def inet_pton (text : List Char) : Option Network32 :=
  match (text.splitOn '.').map octet with
  | [some a, some b, some c, some d] => some ⟨a, b, c, d⟩
  | _ => none

/-- `INET_ADDRSTRLEN`. -/
def INET_ADDRSTRLEN : ℕ := 16

/-- `SocketsOps::toHostPort`. -/
def toHostPort (size : ℕ) (addr : SockAddrIn) : List Char :=
  let host := (inet_ntop INET_ADDRSTRLEN addr.sinAddr).getD "INVALID".toList
  let port := networkToHost16 addr.sinPort
  snprintf size (host ++ ':' :: unsigned port.toNat)

/-- `SocketsOps::fromHostPort`, which leaves the address alone if the text is not one. -/
def fromHostPort (ip : List Char) (port : BitVec 16) (addr : SockAddrIn) : SockAddrIn :=
  ⟨hostToNetwork16 port, (inet_pton ip).getD addr.sinAddr⟩

end SocketsOps

open SocketsOps

namespace InetAddress

/-- `InetAddress::InetAddress` from a text and a port. -/
def ofIp (ip : List Char) (port : BitVec 16) : SockAddrIn :=
  fromHostPort ip port ⟨⟨0, 0⟩, ⟨0, 0, 0, 0⟩⟩

/-- `InetAddress::toHostPort`, whose buffer has 32 bytes. -/
def toHostPort (addr : SockAddrIn) : List Char := SocketsOps.toHostPort 32 addr

/-- The address of a text `host:port`, and what follows it. -/
def readHostPort (text : List Char) : SockAddrIn × List Char :=
  let fields := readField ':' text
  let port := readUnsigned fields.2
  (ofIp fields.1 (BitVec.ofNat 16 port.1), port.2)

end InetAddress

/-- The name that `TcpClient::newConnection` prints into a buffer of 32 bytes. -/
def clientConnName (peerAddr : SockAddrIn) (id : ℤ) : List Char :=
  snprintf 32 (':' :: InetAddress.toHostPort peerAddr ++ '#' :: signed 1 id)

/-- The address and the number in a text `host:port#id`. -/
def readConnName (text : List Char) : SockAddrIn × ℤ :=
  let address := InetAddress.readHostPort text
  (address.1, (readSigned address.2.tail).1)

/-! ### Bytes -/

/-- A port comes back from the network byte order. -/
theorem networkToHost16_hostToNetwork16 (host : BitVec 16) :
    networkToHost16 (hostToNetwork16 host) = host := by
  have hlt := host.isLt
  apply BitVec.eq_of_toNat_eq
  unfold networkToHost16 hostToNetwork16
  simp only [BitVec.toNat_ofNat]
  omega

/-- And goes there again. -/
theorem hostToNetwork16_networkToHost16 (net : Network16) :
    hostToNetwork16 (networkToHost16 net) = net := by
  obtain ⟨high, low⟩ := net
  have hhigh := high.isLt
  have hlow := low.isLt
  unfold networkToHost16 hostToNetwork16
  refine Network16.mk.injEq .. ▸ ⟨?_, ?_⟩
  · apply BitVec.eq_of_toNat_eq
    simp only [BitVec.toNat_ofNat]
    omega
  · apply BitVec.eq_of_toNat_eq
    simp only [BitVec.toNat_ofNat]
    omega

/-! ### Addresses -/

/-- The fields of an address. -/
def Network32.fields (addr : Network32) : List (List Char) :=
  [unsigned addr.a.toNat, unsigned addr.b.toNat, unsigned addr.c.toNat, unsigned addr.d.toNat]

/-- A field is a text that `inet_pton` accepts. -/
theorem octet_unsigned (x : BitVec 8) : octet (unsigned x.toNat) = some x := by
  have hlt := x.isLt
  have hvalue : Nat.ofDigitChars 10 (unsigned x.toNat) 0 = x.toNat := Nat.ofDigitChars_ten_toDigits
  unfold octet
  rw [hvalue, if_pos ⟨numeral_unsigned x.toNat, by omega⟩, BitVec.ofNat_toNat, BitVec.setWidth_eq]

/-- And it accepts no other text for it. -/
theorem eq_unsigned_of_octet {text : List Char} {x : BitVec 8} (h : octet text = some x) :
    text = unsigned x.toNat := by
  unfold octet at h
  split at h
  · rename_i haccepted
    obtain ⟨hnumeral, hle⟩ := haccepted
    have hvalue : x.toNat = Nat.ofDigitChars 10 text 0 := by
      rw [← Option.some.inj h, BitVec.toNat_ofNat]
      omega
    rw [hvalue, unsigned_ofDigitChars hnumeral]
  · cases h

/-- `inet_pton` accepts the fields of an address with dots between them and no other text. -/
theorem eq_of_inet_pton {text : List Char} {addr : Network32} (h : inet_pton text = some addr) :
    text = ['.'].intercalate addr.fields := by
  unfold inet_pton at h
  split at h
  · rename_i a b c d hfields
    have hjoin : ['.'].intercalate (text.splitOn '.') = text := List.intercalate_splitOn '.'
    rw [← hjoin, ← Option.some.inj h]
    congr 1
    generalize text.splitOn '.' = fields at hfields
    obtain ⟨fa, _, rfl, ha, hrest⟩ := List.map_eq_cons_iff.mp hfields
    obtain ⟨fb, _, rfl, hb, hrest⟩ := List.map_eq_cons_iff.mp hrest
    obtain ⟨fc, _, rfl, hc, hrest⟩ := List.map_eq_cons_iff.mp hrest
    obtain ⟨fd, _, rfl, hd, hrest⟩ := List.map_eq_cons_iff.mp hrest
    obtain rfl := List.map_eq_nil_iff.mp hrest
    rw [eq_unsigned_of_octet ha, eq_unsigned_of_octet hb, eq_unsigned_of_octet hc,
      eq_unsigned_of_octet hd]
    rfl
  · cases h

/-- The text of an address fits its buffer, and `inet_pton` reads it. -/
theorem Network32.exists_ntop (addr : Network32) :
    ∃ text, inet_ntop INET_ADDRSTRLEN addr = some text ∧ inet_pton text = some addr ∧
      text.length ≤ 15 ∧ ':' ∉ text := by
  have hlength (x : BitVec 8) : (unsigned x.toNat).length ≤ 3 := by
    have hlt := x.isLt
    exact length_unsigned_le (by omega) (by omega)
  have ha := hlength addr.a
  have hb := hlength addr.b
  have hc := hlength addr.c
  have hd := hlength addr.d
  have htext : ['.'].intercalate addr.fields =
      unsigned addr.a.toNat ++ '.' :: (unsigned addr.b.toNat ++ '.' ::
        (unsigned addr.c.toNat ++ '.' :: unsigned addr.d.toNat)) := by
    simp [List.intercalate, Network32.fields]
  have hshort : (['.'].intercalate addr.fields).length ≤ 15 := by
    rw [htext]
    simp only [List.length_append, List.length_cons]
    omega
  refine ⟨['.'].intercalate addr.fields, ?_, ?_, hshort, ?_⟩
  · unfold inet_ntop
    exact if_pos (Nat.lt_succ_of_le hshort)
  · have hfields : ∀ field ∈ addr.fields, '.' ∉ field := by
      intro field hfield
      unfold Network32.fields at hfield
      rcases List.mem_cons.mp hfield with rfl | hfield
      · exact not_mem_unsigned rfl _
      rcases List.mem_cons.mp hfield with rfl | hfield
      · exact not_mem_unsigned rfl _
      rcases List.mem_cons.mp hfield with rfl | hfield
      · exact not_mem_unsigned rfl _
      rw [List.mem_singleton.mp hfield]
      exact not_mem_unsigned rfl _
    unfold inet_pton
    rw [List.splitOn_intercalate '.' hfields (List.cons_ne_nil _ _)]
    simp [Network32.fields, octet_unsigned]
  · rw [htext]
    simp [not_mem_unsigned]

namespace InetAddress

/-- The text of an address is the whole `host:port`. -/
theorem exists_toHostPort (addr : SockAddrIn) :
    ∃ host, toHostPort addr = host ++ ':' :: unsigned (networkToHost16 addr.sinPort).toNat ∧
      inet_pton host = some addr.sinAddr ∧ host.length ≤ 15 ∧ ':' ∉ host := by
  obtain ⟨host, hntop, hpton, hlength, hcolon⟩ := addr.sinAddr.exists_ntop
  refine ⟨host, ?_, hpton, hlength, hcolon⟩
  have hport : (unsigned (networkToHost16 addr.sinPort).toNat).length ≤ 5 := by
    have hlt := (networkToHost16 addr.sinPort).isLt
    exact length_unsigned_le (by omega) (by omega)
  unfold toHostPort SocketsOps.toHostPort
  rw [hntop]
  refine snprintf_of_length_lt ?_
  change (host ++ ':' :: unsigned (networkToHost16 addr.sinPort).toNat).length < 32
  rw [List.length_append, List.length_cons]
  omega

/-- At most 15 characters of a host, a colon and 5 digits. -/
theorem length_toHostPort_le (addr : SockAddrIn) : (toHostPort addr).length ≤ 21 := by
  obtain ⟨host, htext, -, hlength, -⟩ := exists_toHostPort addr
  have hport : (unsigned (networkToHost16 addr.sinPort).toNat).length ≤ 5 := by
    have hlt := (networkToHost16 addr.sinPort).isLt
    exact length_unsigned_le (by omega) (by omega)
  rw [htext, List.length_append, List.length_cons]
  omega

/-- An address is read back, whatever follows it. -/
theorem readHostPort_append (addr : SockAddrIn) {rest : List Char} (hrest : Ends rest) :
    readHostPort (toHostPort addr ++ rest) = (addr, rest) := by
  obtain ⟨host, htext, hpton, -, hcolon⟩ := exists_toHostPort addr
  unfold readHostPort
  rw [htext, List.append_assoc, List.cons_append, readField_append hcolon]
  dsimp only
  rw [readUnsigned_unsigned _ hrest]
  unfold ofIp fromHostPort
  rw [hpton, BitVec.ofNat_toNat, BitVec.setWidth_eq, hostToNetwork16_networkToHost16]
  rfl

/-- **Addresses are read back.** The text of every address fits the buffer, and the constructor
from a text and a port makes the address of its two parts again. The other way round, an address
that is made from a text and a port is printed as they were given exactly if `inet_pton` accepts
the text. -/
theorem address_read_back (addr : SockAddrIn) (ip : List Char) (port : BitVec 16) :
    (toHostPort addr).length ≤ 21 ∧ readHostPort (toHostPort addr) = (addr, []) ∧
      (toHostPort (ofIp ip port) = ip ++ ':' :: unsigned port.toNat ↔
        (inet_pton ip).isSome = true) := by
  have hread := readHostPort_append addr Ends.nil
  rw [List.append_nil] at hread
  refine ⟨length_toHostPort_le addr, hread, ?_⟩
  obtain ⟨host, htext, hpton, -, -⟩ := exists_toHostPort (ofIp ip port)
  have hport : networkToHost16 (ofIp ip port).sinPort = port :=
    networkToHost16_hostToNetwork16 port
  rw [hport] at htext
  rw [htext]
  refine ⟨fun heq => ?_, fun hsome => ?_⟩
  · obtain rfl := List.append_cancel_right heq
    rw [hpton]
    rfl
  · obtain ⟨net, hnet⟩ := Option.isSome_iff_exists.mp hsome
    have haddr : (ofIp ip port).sinAddr = net := by
      unfold ofIp fromHostPort
      rw [hnet]
      rfl
    rw [haddr] at hpton
    rw [eq_of_inet_pton hpton, eq_of_inet_pton hnet]

end InetAddress

/-! ### Connection names -/

/-- The number of a connection fits the buffer of `TcpServer::newConnection`. -/
theorem snprintf_connId {id : ℤ} (hmin : 1 ≤ id) (hmax : id ≤ 2147483647) :
    snprintf 32 ('#' :: signed 1 id) = '#' :: signed 1 id := by
  have hlength : (signed 1 id).length ≤ 10 + 1 :=
    length_signed_le (by omega) (by omega) (by omega)
  refine snprintf_of_length_lt ?_
  rw [List.length_cons]
  omega

/-- **Connections have names of their own.** The name of a connection of a server, which is the
key of `connections_`, is whole and tells the address of the server and the number of the
connection; so does the name of a connection of a client, as long as the client has made fewer than
a hundred million of them. -/
theorem connection_names_read_back (addr : SockAddrIn) (id : ℤ) (hmin : 1 ≤ id)
    (hmax : id ≤ 2147483647) :
    let serverName := String.ofList (InetAddress.toHostPort addr)
    (TcpServer.connName serverName id).toList =
        serverName.toList ++ snprintf 32 ('#' :: signed 1 id) ∧
      readConnName (TcpServer.connName serverName id).toList = (addr, id) ∧
      (id < 100000000 → readConnName (clientConnName addr id).tail = (addr, id)) := by
  have hread : readConnName (InetAddress.toHostPort addr ++ '#' :: signed 1 id) = (addr, id) := by
    have hsigned := readSigned_signed 1 id Ends.nil
    rw [List.append_nil] at hsigned
    unfold readConnName
    rw [InetAddress.readHostPort_append addr (Ends.cons rfl _)]
    change (addr, (readSigned (signed 1 id)).1) = (addr, id)
    rw [hsigned]
  have hname : (TcpServer.connName (String.ofList (InetAddress.toHostPort addr)) id).toList =
      InetAddress.toHostPort addr ++ '#' :: signed 1 id := by
    unfold TcpServer.connName
    rw [String.toList_append, String.toList_append, toList_toString, String.toList_ofList]
    rfl
  refine ⟨?_, ?_, fun hid => ?_⟩
  · rw [hname, snprintf_connId hmin hmax, String.toList_ofList]
  · rw [hname, hread]
  · have haddress := InetAddress.length_toHostPort_le addr
    have hnumber : (signed 1 id).length ≤ 8 := by
      have hlength := length_padded_le (k := 1) (m := 8) (n := id.natAbs) (by omega) (by omega)
        (by omega)
      unfold signed
      rwa [if_neg (by omega)]
    have hwhole : clientConnName addr id =
        ':' :: InetAddress.toHostPort addr ++ '#' :: signed 1 id := by
      refine snprintf_of_length_lt ?_
      simp only [List.cons_append, List.length_cons, List.length_append]
      omega
    rw [hwhole]
    exact hread

/-- `127.0.0.1:8000`. -/
def loopback : SockAddrIn := ⟨hostToNetwork16 8000, ⟨127, 0, 0, 1⟩⟩

/-- The seventh connection of a server. -/
theorem connection_names_read_back_seventh :
    InetAddress.toHostPort loopback = "127.0.0.1:8000".toList ∧
      readConnName (TcpServer.connName (String.ofList (InetAddress.toHostPort loopback)) 7).toList =
        (loopback, 7) :=
  ⟨by decide, (connection_names_read_back loopback 7 (by omega) (by omega)).2.1⟩

end Dalin.Net

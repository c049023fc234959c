/-
`kernel_get_device` on OpenBSD: the device read out of the buffer `SIOCGWG` fills.

The code first sizes the buffer.  It calls the ioctl with the current `wgd_size`, and as
long as the kernel answers with a larger one, it `realloc`s the buffer to that size and
asks again.  Then it walks the buffer: the interface header, and `i_peers_count` peers,
each header followed by its `p_aips_count` allowed-ip records, the next header where the
records end.  Each peer and allowed-ip is `calloc`ed and linked at the end of its chain.

Nothing in the walk compares a count with `wgd_size`: the code trusts the kernel to answer
with records that fit.  When they do, every read stays inside (`kernelGetDevice_reads_inside`).
When they do not, the walk reads on past the end instead of failing: at every size the
kernel can answer with, some counts in the buffer send it there
(`kernelGetDevice_reads_past_buffer`).  What it returns keeps to "`0` with a device, or a
negative `errno`", the `errno` being the socket's, a failed `SIOCGWG`'s or `ENOMEM`; a
socket that cannot be opened returns before `*device` is set to `NULL`.
-/
import WireguardIpc.Openbsd.Flat

namespace WireguardIpc

namespace Openbsd

open Block

/-! ### The walk -/

/-- One `struct wg_aip_io` at `off`, read into a `calloc`ed allowed-ip. -/
def readAip (b : Block) (off : Nat) : Option Wgallowedip := do
  let af ← b.loadNat off aAf
  let aip := { Wgallowedip.zero with family := UInt16.ofNat af }
  if af = AF_INET then
    let ip ← b.load (off + aIpv4.offset) aIpv4.width
    let cidr ← b.loadNat off aCidr
    pure { aip with ip := aip.ip.copyIn ip, cidr := UInt8.ofNat cidr }
  else if af = AF_INET6 then
    let ip ← b.load (off + aIpv6.offset) aIpv6.width
    let cidr ← b.loadNat off aCidr
    pure { aip with ip := aip.ip.copyIn ip, cidr := UInt8.ofNat cidr }
  else pure aip

/-- The allowed-ip loop of a peer: `count` records from `off`, each read into a `calloc`ed
allowed-ip linked at the end of the peer's chain.  The peer and the offset past its last
record, or `none` inside when a `calloc` fails. -/
def readAips (b : Block) (sys : Sys) (peer : Wgpeer) (off : Nat) :
    Nat → Option (Sys × Option (Wgpeer × Nat))
  | 0 => some (sys, some (peer, off))
  | count + 1 =>
    match sys.calloc with
    | (false, sys) => some (sys, none)
    | (true, sys) => do
      let aip ← readAip b off
      readAips b sys { peer with allowedips := peer.allowedips ++ [aip],
                                 lastAllowedip := some peer.allowedips.length }
        (off + WG_AIP_IO_LEN) count

/-- One `struct wg_peer_io` at `off`, read into a `calloc`ed peer, before its allowed-ips. -/
def readPeer (b : Block) (off : Nat) : Option Wgpeer := do
  let flags ← b.loadNat off pFlags
  let peer := Wgpeer.zero
  let peer ← (if hasFlag flags WG_PEER_HAS_PUBLIC then
      (b.load (off + pPublic.offset) pPublic.width).map fun key =>
        { peer with publicKey := peer.publicKey.copyIn key,
                    flags := { peer.flags with hasPublicKey := true } }
    else pure peer)
  let peer ← (if hasFlag flags WG_PEER_HAS_PSK then
      (b.load (off + pPsk.offset) pPsk.width).map fun key =>
        { peer with presharedKey := peer.presharedKey.copyIn key,
                    flags := { peer.flags with hasPresharedKey := true } }
    else pure peer)
  let peer ← (if hasFlag flags WG_PEER_HAS_PKA then
      (b.loadNat off pPka).map fun pka =>
        { peer with persistentKeepaliveInterval := UInt16.ofNat pka,
                    flags := { peer.flags with hasPersistentKeepaliveInterval := true } }
    else pure peer)
  let peer ← (if hasFlag flags WG_PEER_HAS_ENDPOINT then
      (b.loadNat off pSaLen).bind fun saLen =>
        if saLen ≤ SOCKADDR_LEN then
          (b.load (off + pEndpoint.offset) saLen).map fun sa =>
            { peer with endpoint := peer.endpoint.copyIn sa }
        else pure peer
    else pure peer)
  let rx ← b.loadNat off pRxbytes
  let tx ← b.loadNat off pTxbytes
  let sec ← b.loadNat off pLastHandshakeSec
  let nsec ← b.loadNat off pLastHandshakeNsec
  pure { peer with rxBytes := UInt64.ofNat rx, txBytes := UInt64.ofNat tx,
                   lastHandshakeTime := ⟨UInt64.ofNat sec, UInt64.ofNat nsec⟩ }

/-- The peer loop: `count` peers from `off`, each `calloc`ed, read with its allowed-ips and
linked at the end of the device's chain, the next one starting where the previous one's
records end.  The device, or `none` inside when a `calloc` fails. -/
def readPeers (b : Block) (sys : Sys) (dev : Wgdevice) (off : Nat) :
    Nat → Option (Sys × Option Wgdevice)
  | 0 => some (sys, some dev)
  | count + 1 =>
    match sys.calloc with
    | (false, sys) => some (sys, none)
    | (true, sys) => do
      let peer ← readPeer b off
      let aips ← b.loadNat off pAipsCount
      let (sys, r) ← readAips b sys peer (off + WG_PEER_IO_LEN) aips
      match r with
      | none => some (sys, none)
      | some (peer, off) =>
        readPeers b sys { dev with peers := dev.peers ++ [peer], lastPeer := some dev.peers.length }
          off count

/-- The walk of `kernel_get_device` over the buffer, from `dev = calloc(...)` on: the device,
or `none` inside when a `calloc` fails. -/
def readInterface (b : Block) (sys : Sys) (iface : List UInt8) : Option (Sys × Option Wgdevice) :=
  match sys.calloc with
  | (false, sys) => some (sys, none)
  | (true, sys) => do
    let flags ← b.loadNat 0 iFlags
    let dev := { Wgdevice.zero with name := IfName.ofCString iface }
    let dev ← (if hasFlag flags WG_INTERFACE_HAS_RTABLE then
        (b.loadNat 0 iRtable).map fun rtable =>
          { dev with fwmark := UInt32.ofNat rtable, flags := { dev.flags with hasFwmark := true } }
      else pure dev)
    let dev ← (if hasFlag flags WG_INTERFACE_HAS_PORT then
        (b.loadNat 0 iPort).map fun port =>
          { dev with listenPort := UInt16.ofNat port, flags := { dev.flags with hasListenPort := true } }
      else pure dev)
    let dev ← (if hasFlag flags WG_INTERFACE_HAS_PUBLIC then
        (b.load iPublic.offset iPublic.width).map fun key =>
          { dev with publicKey := dev.publicKey.copyIn key,
                     flags := { dev.flags with hasPublicKey := true } }
      else pure dev)
    let dev ← (if hasFlag flags WG_INTERFACE_HAS_PRIVATE then
        (b.load iPrivate.offset iPrivate.width).map fun key =>
          { dev with privateKey := dev.privateKey.copyIn key,
                     flags := { dev.flags with hasPrivateKey := true } }
      else pure dev)
    let count ← b.loadNat 0 iPeersCount
    readPeers b sys dev WG_INTERFACE_IO_LEN count

/-! ### Sizing the buffer -/

/-- What one `SIOCGWG` does: fail, setting `errno`, or set `wgd_size` and leave the buffer
holding `fill`. -/
inductive GetIoctl
  | fail (errno : Nat)
  | ok (size : UInt64) (fill : Nat → UInt8)

/-- The loop `for (size_t last_size = wgdata.wgd_size;; last_size = wgdata.wgd_size)`: an
ioctl, then, unless it asks for no more than `last_size`, a `realloc` to what it asks for.
The buffer it stops with (`none` for `NULL`), or the `errno` of the ioctl or `realloc` that
failed; `none` outside when the list of ioctls runs out.  The bytes a `realloc` leaves are
never read before the next ioctl fills them. -/
def sizeLoop (sys : Sys) (lastSize : UInt64) (buffer : Option Block) :
    List GetIoctl → Option (Sys × Except Nat (Option Block))
  | [] => none
  | .fail errno :: _ => some ({ sys with errno := errno }, .error errno)
  | .ok size fill :: ioctls =>
    let buffer := buffer.map fun b => { b with byte := fill }
    if lastSize ≥ size then some (sys, .ok buffer)
    else
      match sys.calloc with
      | (false, sys) => some (sys, .error sys.errno)
      | (true, sys) => sizeLoop sys size (some ⟨size.toNat, fun _ => 0⟩) ioctls

/-- `kernel_get_device(device, iface)` on OpenBSD, given the caller's `*device`, `errno` when
the datagram socket cannot be opened, the allocations' outcomes and the ioctls' results: the
return value and `*device`, which the code sets to `NULL` only once the socket is open;
`none` when it reads outside the buffer or dereferences `NULL`, or when the list of ioctls
runs out. -/
def kernelGetDevice (device : Option Wgdevice) (sockErrno : Option Nat) (sys : Sys)
    (iface : List UInt8) (ioctls : List GetIoctl) : Option (Int × Option Wgdevice) :=
  match sockErrno with
  | some e => some (-(e : Int), device)
  | none => do
    let (sys, r) ← sizeLoop sys 0 none ioctls
    match r with
    | .error e => pure (-(e : Int), none)
    | .ok none => none
    | .ok (some b) => do
      let (sys, dev) ← readInterface b sys iface
      match dev with
      | none => pure (-(sys.errno : Int), none)
      | some dev => pure (0, some dev)

/-! ### Reads inside the buffer -/

theorem bind_ite_some {α β : Type} (c : Prop) [Decidable c] (a a' : α) (f : α → Option β) :
    ((if c then some a else some a') >>= f) = f (if c then a else a') := by
  split_ifs <;> rfl

/-- A load guarded by a bound on its length stays inside a block the bound fits in. -/
theorem map_ite_load {b : Block} {o n m : Nat} {α : Type} (f : List UInt8 → α) (y : α)
    (h : o + m ≤ b.size) :
    (if n ≤ m then (b.load o n).map f else some y) = some (if n ≤ m then f (b.read o n) else y) := by
  split_ifs with hn
  · rw [load_of_le (by omega), Option.map_some']
  · rfl

theorem le_of_loadNat_eq_some {b : Block} {base : Nat} {f : Field} {v : Nat}
    (h : b.loadNat base f = some v) : base + f.offset + f.width ≤ b.size :=
  Nat.not_lt.1 fun hlt => by rw [loadNat_eq_none_iff.2 hlt] at h; cases h

/-- A record inside the buffer is read, whatever it holds. -/
theorem readAip_isSome {b : Block} {off : Nat} (h : off + WG_AIP_IO_LEN ≤ b.size) :
    ∃ a, readAip b off = some a := by
  have hn := loadNat_of_inside h
  simp only [readAip, hn aAf (by decide), hn aCidr (by decide), Option.bind_eq_bind,
    Option.some_bind, load_of_le (show off + aIpv4.offset + aIpv4.width ≤ b.size by
      simp only [aIpv4, WG_AIP_IO_LEN] at h ⊢; omega),
    load_of_le (show off + aIpv6.offset + aIpv6.width ≤ b.size by
      simp only [aIpv6, WG_AIP_IO_LEN] at h ⊢; omega)]
  split_ifs <;> exact ⟨_, rfl⟩

/-- A peer header inside the buffer is read, whatever it holds. -/
theorem readPeer_isSome {b : Block} {off : Nat} (h : off + WG_PEER_IO_LEN ≤ b.size) :
    ∃ p, readPeer b off = some p := by
  have hl : ∀ o n, o + n ≤ off + WG_PEER_IO_LEN → b.load o n = some (b.read o n) :=
    fun o n h₂ => load_of_le (by omega)
  have hn := loadNat_of_inside h
  simp only [readPeer, hn pFlags (by decide), hn pRxbytes (by decide), hn pTxbytes (by decide),
    hn pLastHandshakeSec (by decide), hn pLastHandshakeNsec (by decide), hn pPka (by decide),
    hn pSaLen (by decide), hl (off + pPublic.offset) pPublic.width (by simp [pPublic, WG_PEER_IO_LEN]),
    hl (off + pPsk.offset) pPsk.width (by simp [pPsk, WG_PEER_IO_LEN]), Option.bind_eq_bind,
    Option.some_bind, Option.map_some', Option.pure_def, bind_ite_some,
    map_ite_load _ _ (show off + pEndpoint.offset + SOCKADDR_LEN ≤ b.size by
      simp only [pEndpoint, SOCKADDR_LEN, WG_PEER_IO_LEN] at h ⊢; omega)]
  exact ⟨_, rfl⟩

/-- **The allowed-ip loop inside the buffer**: with its records inside, it stops (at a
failed `calloc` or past the last record) without reading outside, and past the last record
it is `24` bytes per record further on. -/
theorem readAips_spec {b : Block} {off count : Nat} (h : off + WG_AIP_IO_LEN * count ≤ b.size)
    (sys : Sys) (peer : Wgpeer) : ∃ sys' r, readAips b sys peer off count = some (sys', r) ∧
      ∀ p o, r = some (p, o) → o = off + WG_AIP_IO_LEN * count := by
  induction count generalizing off sys peer with
  | zero => exact ⟨_, _, rfl, fun _ _ h => by cases h; rfl⟩
  | succ count ih =>
    rcases hs : sys.calloc with ⟨_ | _, sys'⟩
    · exact ⟨sys', none, by simp only [readAips, hs], fun _ _ h => nomatch h⟩
    · obtain ⟨a, ha⟩ := readAip_isSome (show off + WG_AIP_IO_LEN ≤ b.size by
        rw [Nat.mul_succ] at h; omega)
      obtain ⟨sys'', r, hr, hoff⟩ := ih (show off + WG_AIP_IO_LEN + WG_AIP_IO_LEN * count ≤ b.size by
        rw [Nat.mul_succ] at h; omega) sys'
        { peer with allowedips := peer.allowedips ++ [a], lastAllowedip := some peer.allowedips.length }
      refine ⟨sys'', r, ?_, fun p o hpo => by rw [hoff p o hpo, Nat.mul_succ]; omega⟩
      simp only [readAips, hs, ha, Option.bind_eq_bind, Option.some_bind, hr]

/-- The `count` peers the buffer declares from `off` on lie inside it: each header, and the
records its `p_aips_count` declares. -/
def PeersFit (b : Block) : Nat → Nat → Prop
  | _, 0 => True
  | off, count + 1 =>
    match b.loadNat off pAipsCount with
    | none => False
    | some aips => off + WG_PEER_IO_LEN + WG_AIP_IO_LEN * aips ≤ b.size ∧
        PeersFit b (off + WG_PEER_IO_LEN + WG_AIP_IO_LEN * aips) count

/-- Everything the buffer declares lies inside it. -/
def Fits (b : Block) : Prop :=
  match b.loadNat 0 iPeersCount with
  | none => False
  | some count => PeersFit b WG_INTERFACE_IO_LEN count

theorem readPeers_of_fit {b : Block} {off count : Nat} (h : PeersFit b off count) (sys : Sys)
    (dev : Wgdevice) : readPeers b sys dev off count ≠ none := by
  induction count generalizing off sys dev with
  | zero => simp [readPeers]
  | succ count ih =>
    simp only [PeersFit] at h
    split at h
    · exact h.elim
    rename_i aips hc
    obtain ⟨hfit, hrest⟩ := h
    rcases hs : sys.calloc with ⟨_ | _, sys'⟩
    · simp [readPeers, hs]
    obtain ⟨p, hp⟩ := readPeer_isSome (show off + WG_PEER_IO_LEN ≤ b.size by
      have := le_of_loadNat_eq_some hc; simp only [pAipsCount, WG_PEER_IO_LEN] at this ⊢; omega)
    obtain ⟨sys'', r, hr, hoff⟩ := readAips_spec (show off + WG_PEER_IO_LEN + WG_AIP_IO_LEN * aips ≤ b.size
      from hfit) sys' p
    simp only [readPeers, hs, hp, hc, hr, Option.bind_eq_bind, Option.some_bind]
    rcases r with _ | ⟨p', o⟩
    · simp
    · rw [hoff p' o rfl]; exact ih hrest _ _

/-- **Declared records that fit are read inside the buffer.** -/
theorem readInterface_of_fits {b : Block} (h : Fits b) (sys : Sys) (iface : List UInt8) :
    readInterface b sys iface ≠ none := by
  simp only [Fits] at h
  split at h
  · exact h.elim
  rename_i count hc
  have hsize : WG_INTERFACE_IO_LEN ≤ b.size := by
    have := le_of_loadNat_eq_some hc; simp only [iPeersCount, WG_INTERFACE_IO_LEN] at this ⊢; omega
  have hn := loadNat_of_inside (show 0 + WG_INTERFACE_IO_LEN ≤ b.size by omega)
  rcases hs : sys.calloc with ⟨_ | _, sys'⟩
  · simp [readInterface, hs]
  simp only [readInterface, hs, hn iFlags (by decide), hn iRtable (by decide), hn iPort (by decide),
    hc, load_of_le (show iPublic.offset + iPublic.width ≤ b.size by
      simp only [iPublic, WG_INTERFACE_IO_LEN] at hsize ⊢; omega),
    load_of_le (show iPrivate.offset + iPrivate.width ≤ b.size by
      simp only [iPrivate, WG_INTERFACE_IO_LEN] at hsize ⊢; omega),
    Option.bind_eq_bind, Option.some_bind, Option.map_some', Option.pure_def, bind_ite_some]
  exact readPeers_of_fit h _ _

/-! ### Counts that do not fit -/

/-- **A peer header past the end is read anyway**: nothing checks it against the buffer. -/
theorem readPeers_header_past {b : Block} {off : Nat} (h : b.size < off + WG_PEER_IO_LEN)
    (e : Nat) (dev : Wgdevice) (n : Nat) : readPeers b ⟨[], e⟩ dev off (n + 1) = none := by
  have hc : b.loadNat off pAipsCount = none :=
    loadNat_eq_none_iff.2 (by simp only [pAipsCount, WG_PEER_IO_LEN] at h ⊢; omega)
  simp only [readPeers, Sys.calloc]
  cases readPeer b off <;> simp [hc]

/-- Peers declared past the end of a block that is zero from `off` on: the loop walks the
empty peers that fit and then reads past the end. -/
theorem readPeers_past {b : Block} {off : Nat} (hz : ∀ i, off ≤ i → b.byte i = 0) (e : Nat)
    (dev : Wgdevice) (n : Nat) (h : b.size < off + WG_PEER_IO_LEN * (n + 1)) :
    readPeers b ⟨[], e⟩ dev off (n + 1) = none := by
  induction n generalizing off dev with
  | zero => exact readPeers_header_past (by simpa using h) e dev 0
  | succ n ih =>
    by_cases hin : off + WG_PEER_IO_LEN ≤ b.size
    · obtain ⟨p, hp⟩ := readPeer_isSome hin
      have hc : b.loadNat off pAipsCount = some 0 :=
        loadNat_of_zero (by simp only [pAipsCount, WG_PEER_IO_LEN] at hin ⊢; omega)
          fun i hi => hz i (by simp only [Field.Covers, pAipsCount] at hi; omega)
      rw [readPeers.eq_2]
      simp only [Sys.calloc, hp, hc, Option.bind_eq_bind, Option.some_bind, readAips.eq_1]
      exact ih (fun i hi => hz i (by simp only [WG_PEER_IO_LEN] at hi; omega)) _
        (by simp only [WG_PEER_IO_LEN] at h ⊢; omega)
    · exact readPeers_header_past (by omega) e dev (n + 1)

/-- A buffer of `size` bytes that declares `size` peers, and is zero everywhere else, is read
past its end. -/
theorem readInterface_past {size : Nat} (hpos : 0 < size) (hsize : size < 2 ^ 64) (e : Nat)
    (iface : List UInt8) :
    readInterface ⟨size, fun i => if iPeersCount.offset ≤ i then
      (leBytes 8 size).getD (i - iPeersCount.offset) 0 else 0⟩ ⟨[], e⟩ iface = none := by
  have hflags : Block.loadNat ⟨size, fun i => if iPeersCount.offset ≤ i then
      (leBytes 8 size).getD (i - iPeersCount.offset) 0 else 0⟩ 0 iFlags = some 0 :=
    loadNat_of_zero (by simp only [iFlags]; omega) fun i hi => if_neg (by
      simp only [Field.Covers, iFlags, iPeersCount] at hi ⊢; omega)
  simp only [readInterface, Sys.calloc, hflags, hasFlag_zero, Bool.false_eq_true, ↓reduceIte,
    Option.bind_eq_bind, Option.some_bind, Option.pure_def]
  by_cases h80 : size < WG_INTERFACE_IO_LEN
  · rw [loadNat_eq_none_iff.2 (by simp only [iPeersCount, WG_INTERFACE_IO_LEN] at h80 ⊢; omega)]
    rfl
  have hread : Block.read ⟨size, fun i => if iPeersCount.offset ≤ i then
      (leBytes 8 size).getD (i - iPeersCount.offset) 0 else 0⟩ (0 + iPeersCount.offset)
      iPeersCount.width = leBytes 8 size := by
    refine List.ext_getElem (by simp [iPeersCount]) fun i h₁ h₂ => ?_
    simp only [Block.read, List.getElem_map, List.getElem_range, Nat.zero_add,
      if_pos (Nat.le_add_right _ _), Nat.add_sub_cancel_left, List.getD_eq_getElem _ _ h₂]
  rw [loadNat_of_le (by simp only [iPeersCount, WG_INTERFACE_IO_LEN] at h80 ⊢; omega), hread,
    ofLeBytes_leBytes, Nat.mod_eq_of_lt (by simpa using hsize), Option.some_bind]
  obtain ⟨n, rfl⟩ : ∃ n, size = n + 1 := ⟨size - 1, by omega⟩
  refine readPeers_past (fun i hi => ?_) e _ n (by simp only [WG_INTERFACE_IO_LEN, WG_PEER_IO_LEN] at h80 ⊢; omega)
  simp only [WG_INTERFACE_IO_LEN, iPeersCount] at hi ⊢
  rw [if_pos (by omega), List.getD_eq_default _ _ (by simp; omega)]

/-- **At every size, counts that do not fit are read past the buffer.**  A buffer of the size
the kernel answers with, whose `i_peers_count` declares more peers than fit, sends the walk
past its end: nothing checks the counts against `wgd_size`. -/
theorem kernelGetDevice_reads_past_buffer (size : UInt64) (hsize : 0 < size.toNat) :
    ∃ fill : Nat → UInt8, ¬ Fits ⟨size.toNat, fill⟩ ∧ ∀ (device : Option Wgdevice) (e : Nat)
      (iface : List UInt8),
      kernelGetDevice device none ⟨[], e⟩ iface [.ok size fun _ => 0, .ok size fill] = none := by
  have hpast := readInterface_past hsize (UInt64.toNat_lt_size size)
  refine ⟨_, fun h => readInterface_of_fits h _ [] (hpast 0 []), fun device e iface => ?_⟩
  have hgrow : ¬ (0 : UInt64) ≥ size := fun h => by
    have : size.toNat ≤ 0 := h
    omega
  simp only [kernelGetDevice, sizeLoop, Option.map_none', if_neg hgrow, Sys.calloc,
    if_pos (show size ≥ size from Nat.le_refl size.toNat), Option.map_some', Option.bind_eq_bind,
    Option.some_bind]
  rw [hpast e iface]
  rfl

/-- Once the size loop ends with a buffer, the GET answers whenever its walk does. -/
theorem kernelGetDevice_of_walk (device : Option Wgdevice) (iface : List UInt8)
    {sys sys' : Sys} {ioctls : List GetIoctl} {b : Block}
    (hloop : sizeLoop sys 0 none ioctls = some (sys', .ok (some b)))
    (hwalk : readInterface b sys' iface ≠ none) :
    kernelGetDevice device none sys iface ioctls ≠ none := by
  simp only [kernelGetDevice, hloop, Option.bind_eq_bind, Option.some_bind]
  rcases hr : readInterface b sys' iface with _ | ⟨sys'', dev⟩
  · exact absurd hr hwalk
  · cases dev <;> simp

/-- A buffer of one peer with one allowed-ip: `i_peers_count = 1`, the peer's
`p_aips_count = 1`, the allowed-ip `AF_INET`, every other byte zero. -/
def onePeerBuffer : Nat → UInt8 :=
  fun i => if i = iPeersCount.offset then 1
    else if i = WG_INTERFACE_IO_LEN + pAipsCount.offset then 1
    else if i = WG_INTERFACE_IO_LEN + WG_PEER_IO_LEN then 2 else 0

/-- A failed allocation in the walk leaves `errno` at `ENOMEM`. -/
theorem readAips_errno {b : Block} : ∀ (count : Nat) (sys : Sys) (peer : Wgpeer) (off : Nat)
    {sys' : Sys}, readAips b sys peer off count = some (sys', none) → sys'.errno = ENOMEM
  | 0, _, _, _, _, h => by simp [readAips] at h
  | count + 1, sys, peer, off, sys', h => by
    rcases hc : sys.calloc with ⟨_ | _, sys₁⟩
    · simp only [readAips, hc, Option.some.injEq, Prod.mk.injEq] at h
      obtain ⟨rfl, -⟩ := h
      exact Sys.calloc_errno hc
    · simp only [readAips, hc, Option.bind_eq_bind, Option.bind_eq_some] at h
      obtain ⟨aip, -, h⟩ := h
      exact readAips_errno count _ _ _ h

theorem readPeers_errno {b : Block} : ∀ (count : Nat) (sys : Sys) (dev : Wgdevice) (off : Nat)
    {sys' : Sys}, readPeers b sys dev off count = some (sys', none) → sys'.errno = ENOMEM
  | 0, _, _, _, _, h => by simp [readPeers] at h
  | count + 1, sys, dev, off, sys', h => by
    rcases hc : sys.calloc with ⟨_ | _, sys₁⟩
    · simp only [readPeers, hc, Option.some.injEq, Prod.mk.injEq] at h
      obtain ⟨rfl, -⟩ := h
      exact Sys.calloc_errno hc
    · simp only [readPeers, hc, Option.bind_eq_bind, Option.bind_eq_some] at h
      obtain ⟨peer, -, aips, -, ⟨sys₂, r⟩, hr, h⟩ := h
      cases r with
      | none =>
        obtain ⟨rfl, -⟩ := Prod.mk.inj (Option.some.inj h)
        exact readAips_errno _ _ _ _ hr
      | some p => exact readPeers_errno count _ _ _ h

theorem readInterface_errno {b : Block} {sys sys' : Sys} {iface : List UInt8}
    (h : readInterface b sys iface = some (sys', none)) : sys'.errno = ENOMEM := by
  rcases hc : sys.calloc with ⟨_ | _, sys₁⟩
  · simp only [readInterface, hc, Option.some.injEq, Prod.mk.injEq] at h
    obtain ⟨rfl, -⟩ := h
    exact Sys.calloc_errno hc
  · simp only [readInterface, hc, Option.bind_eq_bind, Option.bind_eq_some] at h
    obtain ⟨_, -, _, -, _, -, _, -, _, -, _, -, h⟩ := h
    exact readPeers_errno _ _ _ _ h

/-- The size loop fails with `ENOMEM` or with the `errno` of one of its ioctls. -/
theorem sizeLoop_error : ∀ (ioctls : List GetIoctl) (sys : Sys) (lastSize : UInt64)
    (buffer : Option Block) {sys' : Sys} {e : Nat},
    sizeLoop sys lastSize buffer ioctls = some (sys', .error e) → e = ENOMEM ∨ GetIoctl.fail e ∈ ioctls
  | [], _, _, _, _, _, h => by cases h
  | .fail errno :: _, _, _, _, _, _, h => by
    simp only [sizeLoop, Option.some.injEq, Prod.mk.injEq, Except.error.injEq] at h
    obtain ⟨-, rfl⟩ := h
    exact .inr (List.mem_cons_self _ _)
  | .ok size fill :: ioctls, sys, lastSize, buffer, sys', e, h => by
    simp only [sizeLoop] at h
    split_ifs at h
    · cases h
    · rcases hc : sys.calloc with ⟨_ | _, sys₁⟩
      · simp only [hc, Option.some.injEq, Prod.mk.injEq, Except.error.injEq] at h
        obtain ⟨rfl, rfl⟩ := h
        exact .inl (Sys.calloc_errno hc)
      · simp only [hc] at h
        exact (sizeLoop_error ioctls _ _ _ h).imp_right (List.mem_cons_of_mem _)

/-- Every error the OpenBSD GET returns is the socket's `errno`, with `*device` as the caller
had it, or a failed `SIOCGWG`'s or `ENOMEM`, with `*device = NULL`. -/
theorem kernelGetDevice_error_origin (device : Option Wgdevice) (sockErrno : Option Nat)
    (sys : Sys) (iface : List UInt8) (ioctls : List GetIoctl) {ret : Int} {d : Option Wgdevice}
    (h : kernelGetDevice device sockErrno sys iface ioctls = some (ret, d)) :
    ret = 0 ∧ d.isSome ∨ ∃ e : Nat, ret = -(e : Int) ∧
      (sockErrno = some e ∧ d = device ∨ d = none ∧ (e = ENOMEM ∨ GetIoctl.fail e ∈ ioctls)) := by
  rcases hs : sockErrno with _ | e
  · simp only [kernelGetDevice, hs, Option.bind_eq_bind, Option.bind_eq_some] at h
    obtain ⟨⟨sys₁, r⟩, hloop, h⟩ := h
    rcases r with e | _ | b
    · obtain ⟨rfl, rfl⟩ := Prod.mk.inj (Option.some.inj h)
      exact .inr ⟨e, rfl, .inr ⟨rfl, sizeLoop_error ioctls sys 0 none hloop⟩⟩
    · cases h
    · simp only [Option.bind_eq_some] at h
      obtain ⟨⟨sys₂, dev⟩, hread, h⟩ := h
      cases dev with
      | none =>
        obtain ⟨rfl, rfl⟩ := Prod.mk.inj (Option.some.inj h)
        exact .inr ⟨ENOMEM, by rw [readInterface_errno hread], .inr ⟨rfl, .inl rfl⟩⟩
      | some dev =>
        obtain ⟨rfl, rfl⟩ := Prod.mk.inj (Option.some.inj h)
        exact .inl ⟨rfl, rfl⟩
  · simp only [kernelGetDevice, hs, Option.some.injEq, Prod.mk.injEq] at h
    obtain ⟨rfl, rfl⟩ := h
    exact .inr ⟨e, rfl, .inl ⟨rfl, rfl⟩⟩

/-- The OpenBSD GET gives no result only when the answers run out while the size loop goes
on, or when the loop stops with a `NULL` buffer or one whose records do not fit. -/
theorem kernelGetDevice_eq_none {device : Option Wgdevice} {sockErrno : Option Nat} {sys : Sys}
    {iface : List UInt8} {ioctls : List GetIoctl}
    (h : kernelGetDevice device sockErrno sys iface ioctls = none) :
    sizeLoop sys 0 none ioctls = none ∨
      ∃ sys' buffer, sizeLoop sys 0 none ioctls = some (sys', .ok buffer) ∧ ∀ b ∈ buffer, ¬ Fits b := by
  rcases hs : sockErrno with _ | e
  · rcases hloop : sizeLoop sys 0 none ioctls with _ | ⟨sys', r⟩
    · exact .inl rfl
    refine .inr ?_
    rcases r with e | _ | b
    · simp [kernelGetDevice, hs, hloop] at h
    · exact ⟨sys', none, rfl, fun _ hb => nomatch hb⟩
    · refine ⟨sys', some b, rfl, fun b' hb hfits => ?_⟩
      obtain rfl := Option.some.inj hb
      exact kernelGetDevice_of_walk device iface hloop (readInterface_of_fits hfits sys' iface)
        (hs ▸ h)
  · simp [kernelGetDevice, hs] at h

/-- The `errno`s an OpenBSD GET returns after its socket opens are not `0` when each failed
`SIOCGWG` sets a non-zero one. -/
theorem pos_of_ioctl_error {ioctls : List GetIoctl} (hfail : ∀ e, GetIoctl.fail e ∈ ioctls → e ≠ 0)
    {e : Nat} (he : e = ENOMEM ∨ GetIoctl.fail e ∈ ioctls) : 0 < e := by
  rcases he with rfl | he
  · decide
  · exact Nat.pos_of_ne_zero (hfail e he)

/-- **What the OpenBSD GET returns, and when it returns nothing.**  For every sequence of
`SIOCGWG` answers, as long as a socket that cannot be opened and each failed `SIOCGWG` set a
non-zero `errno`, the GET returns `0` with a device, or a negative `errno`: the socket's, with
`*device` as the caller had it, or `ENOMEM` or a failed `SIOCGWG`'s, with `*device = NULL`.
It gives no result only when the size loop stops with a `NULL` buffer (the kernel answered
`0` bytes) or with a buffer whose records do not fit, which the walk reads past, or when the
answers run out while the loop goes on. -/
theorem kernelGetDevice_device_or_error (device : Option Wgdevice) (sockErrno : Option Nat)
    (sys : Sys) (iface : List UInt8) (ioctls : List GetIoctl) (hsock : sockErrno ≠ some 0)
    (hfail : ∀ e, GetIoctl.fail e ∈ ioctls → e ≠ 0) :
    (∀ ret d, kernelGetDevice device sockErrno sys iface ioctls = some (ret, d) →
      ret = 0 ∧ d.isSome ∨ ∃ e : Nat, 0 < e ∧ ret = -(e : Int) ∧
        (sockErrno = some e ∧ d = device ∨ d = none ∧ (e = ENOMEM ∨ GetIoctl.fail e ∈ ioctls))) ∧
    (kernelGetDevice device sockErrno sys iface ioctls = none →
      sizeLoop sys 0 none ioctls = none ∨ ∃ sys' buffer,
        sizeLoop sys 0 none ioctls = some (sys', .ok buffer) ∧ ∀ b ∈ buffer, ¬ Fits b) := by
  refine ⟨fun ret d h => ?_, kernelGetDevice_eq_none⟩
  rcases kernelGetDevice_error_origin device sockErrno sys iface ioctls h with h0 | ⟨e, rfl, he⟩
  · exact .inl h0
  · rcases he with ⟨hs, hd⟩ | ⟨hd, he⟩
    · exact .inr ⟨e, Nat.pos_of_ne_zero fun h0 => hsock (h0 ▸ hs), rfl, .inl ⟨hs, hd⟩⟩
    · exact .inr ⟨e, pos_of_ioctl_error hfail he, rfl, .inr ⟨hd, he⟩⟩

/-- An interface whose socket opens and whose two `SIOCGWG`s answer with `onePeerBuffer`. -/
theorem kernelGetDevice_device_or_error_onePeer :
    (none : Option Nat) ≠ some 0 ∧
      (∀ e, GetIoctl.fail e ∈ [GetIoctl.ok 248 onePeerBuffer, .ok 248 onePeerBuffer] → e ≠ 0) ∧
      (∀ ret d, kernelGetDevice none none ⟨[], 0⟩ []
          [.ok 248 onePeerBuffer, .ok 248 onePeerBuffer] = some (ret, d) →
        ret = 0 ∧ d.isSome ∨ ∃ e : Nat, 0 < e ∧ ret = -(e : Int) ∧
          (none = some e ∧ d = none ∨ d = none ∧
            (e = ENOMEM ∨ GetIoctl.fail e ∈ [GetIoctl.ok 248 onePeerBuffer, .ok 248 onePeerBuffer]))) ∧
      (kernelGetDevice none none ⟨[], 0⟩ [] [.ok 248 onePeerBuffer, .ok 248 onePeerBuffer] =
          none →
        sizeLoop ⟨[], 0⟩ 0 none [.ok 248 onePeerBuffer, .ok 248 onePeerBuffer] = none ∨
          ∃ sys' buffer, sizeLoop ⟨[], 0⟩ 0 none [.ok 248 onePeerBuffer, .ok 248 onePeerBuffer] =
            some (sys', .ok buffer) ∧ ∀ b ∈ buffer, ¬ Fits b) := by
  have hsock : (none : Option Nat) ≠ some 0 := by decide
  have hfail : ∀ e, GetIoctl.fail e ∈ [GetIoctl.ok 248 onePeerBuffer, .ok 248 onePeerBuffer] →
      e ≠ 0 := by simp
  exact ⟨hsock, hfail, kernelGetDevice_device_or_error none none ⟨[], 0⟩ [] _ hsock hfail⟩

end Openbsd

end WireguardIpc

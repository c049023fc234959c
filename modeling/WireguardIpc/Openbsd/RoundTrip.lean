/-
The OpenBSD backend end to end: what the walk of `kernel_get_device` reads back from the
buffer `kernel_set_device` hands `SIOCSWG`.

Both halves locate a peer's header where the records of the peer before it end, and both
derive the same offsets from the same counts, so the layout the writer leaves
(`serialize_spec`: `InterfaceAt`, `PeersAt`) is the layout the walk follows
(`readInterface_of_layout`).  Every field comes back, with one exception that the two
halves' size tests make.  The writer copies an endpoint of up to `sizeof(p_endpoint)` bytes,
the union of the socket addresses, 28; the walk copies one only up to
`sizeof(peer->endpoint.addr)`, the size of `struct sockaddr`, 16.  An `AF_INET` endpoint
(`sa_len` 16) comes back; an `AF_INET6` one (`sa_len` 28) is skipped, and the peer is read back
with no endpoint (`readEndpoint_eq`).

The device's size is assumed to fit `size_t`: every peer and allowed-ip of it is a node of
a chain in memory at least as large as its record in the buffer, so every device the code can
be handed satisfies it.  Not proved here: what the kernel itself does with the buffer.
-/
import WireguardIpc.Openbsd.Get
import WireguardIpc.Openbsd.Set

namespace WireguardIpc

/-- A BSD endpoint that is absent, or an `AF_INET` or `AF_INET6` socket address whose `sa_len`
is the size of its structure. -/
def Endpoint.WellFormed (e : Endpoint) : Prop :=
  (e.saFamily = AF_INET → e.saLen = SOCKADDR_IN_LEN) ∧
    (e.saFamily = AF_INET6 → e.saLen = SOCKADDR_IN6_LEN)

namespace Openbsd

open Block

/-! ### The flags the walk tests -/

/-- The bits of `p_flags` the walk tests, as the SET leaves them. -/
theorem hasFlag_peerFlagsWord (peer : Wgpeer) :
    hasFlag (peerFlagsWord peer) WG_PEER_HAS_PUBLIC = true ∧
    hasFlag (peerFlagsWord peer) WG_PEER_HAS_PSK = peer.flags.hasPresharedKey ∧
    hasFlag (peerFlagsWord peer) WG_PEER_HAS_PKA = peer.flags.hasPersistentKeepaliveInterval ∧
    hasFlag (peerFlagsWord peer) WG_PEER_HAS_ENDPOINT = endpointSent peer.endpoint := by
  unfold peerFlagsWord
  generalize peer.flags.hasPresharedKey = a, peer.flags.hasPersistentKeepaliveInterval = b,
    endpointSent peer.endpoint = c, peer.flags.replaceAllowedips = d, peer.flags.removeMe = e
  revert a b c d e
  decide

/-- The bits of `i_flags` the walk tests, as the SET leaves them: it never sets
`WG_INTERFACE_HAS_PUBLIC`. -/
theorem hasFlag_interfaceFlagsWord (dev : Wgdevice) :
    hasFlag (interfaceFlagsWord dev) WG_INTERFACE_HAS_RTABLE = dev.flags.hasFwmark ∧
    hasFlag (interfaceFlagsWord dev) WG_INTERFACE_HAS_PORT = dev.flags.hasListenPort ∧
    hasFlag (interfaceFlagsWord dev) WG_INTERFACE_HAS_PUBLIC = false ∧
    hasFlag (interfaceFlagsWord dev) WG_INTERFACE_HAS_PRIVATE = dev.flags.hasPrivateKey := by
  unfold interfaceFlagsWord
  generalize dev.flags.hasPrivateKey = a, dev.flags.hasListenPort = b, dev.flags.hasFwmark = c,
    dev.flags.replacePeers = d
  revert a b c d
  decide

/-! ### Reading back -/

/-- A peer read back by the walk as the peer `p` that `kernel_set_device` wrote: its public key,
its preshared key and keepalive interval where flagged, its endpoint unless that is `AF_INET6`,
and its allowed-ips as a backend rebuilds them. -/
structure FlatPeer (p q : Wgpeer) : Prop where
  publicKey : q.publicKey = p.publicKey
  presharedKey : p.flags.hasPresharedKey → q.presharedKey = p.presharedKey
  keepalive : p.flags.hasPersistentKeepaliveInterval →
    q.persistentKeepaliveInterval = p.persistentKeepaliveInterval
  endpoint : q.endpoint.sockaddr = if p.endpoint.saFamily = AF_INET6 then none else p.endpoint.sockaddr
  allowedips : q.allowedips = p.allowedips.map Wgallowedip.decoded

/-- A field read under a flag, when the field is there whenever the flag is set. -/
theorem ite_map_eq_some {α β : Type} {c : Bool} {o : Option α} {a : α} (h : c → o = some a)
    (f : α → β) (y : β) :
    (if c = true then o.map f else some y) = some (if c = true then f a else y) := by
  cases c
  · rfl
  · rw [if_pos rfl, h rfl, Option.map_some', if_pos rfl]

theorem ofLeBytes_take_one (e : Endpoint) : ofLeBytes (e.data.take 1) = e.saLen := by
  rcases e with ⟨_ | ⟨x, l⟩, h⟩
  · cases h
  · simp [ofLeBytes, Endpoint.saLen]

/-- A header written with an endpoint reads back its `sa_len`. -/
theorem HeaderAt.loadNat_saLen {b : Block} {off : Nat} {peer : Wgpeer} (h : HeaderAt b off peer)
    (hs : endpointSent peer.endpoint) (hpos : 0 < peer.endpoint.saLen) :
    b.loadNat off pSaLen = some peer.endpoint.saLen := by
  rw [loadNat, show off + pSaLen.offset = off + pEndpoint.offset from rfl,
    load_take (h.endpoint hs) (show pSaLen.width ≤ _ from hpos), Option.map_some', List.take_take,
    Nat.min_eq_left (show pSaLen.width ≤ _ from hpos)]
  exact congrArg some (ofLeBytes_take_one _)

theorem endpointSent_of_inet {e : Endpoint} (he : e.WellFormed) (h4 : e.saFamily = AF_INET) :
    endpointSent e := by
  simp only [endpointSent, h4, he.1 h4]
  decide

/-- **The endpoint step of the walk**, over a header written for a well-formed endpoint: an
`AF_INET` endpoint is copied; the peer is left as it is otherwise, an `AF_INET6` endpoint
included, its `sa_len` being larger than `struct sockaddr`. -/
theorem readEndpoint_eq {b : Block} {off : Nat} {peer : Wgpeer} (h : HeaderAt b off peer)
    (he : peer.endpoint.WellFormed) (f : List UInt8 → Wgpeer) (y : Wgpeer) :
    (if endpointSent peer.endpoint = true then
        (b.loadNat off pSaLen).bind fun saLen =>
          if saLen ≤ SOCKADDR_LEN then (b.load (off + pEndpoint.offset) saLen).map f else some y
      else some y) =
      some (if peer.endpoint.saFamily = AF_INET then f (peer.endpoint.data.take SOCKADDR_IN_LEN)
        else y) := by
  by_cases h4 : peer.endpoint.saFamily = AF_INET
  · have hs := endpointSent_of_inet he h4
    have hl := he.1 h4
    rw [if_pos hs, h.loadNat_saLen hs (by rw [hl]; decide), Option.some_bind, h.endpoint hs, hl,
      if_pos (show SOCKADDR_IN_LEN ≤ SOCKADDR_LEN by decide), Option.map_some', if_pos h4]
  · rw [if_neg h4]
    by_cases hs : endpointSent peer.endpoint = true
    · have h6 : peer.endpoint.saFamily = AF_INET6 := by
        simp only [endpointSent, Bool.and_eq_true, Bool.or_eq_true, beq_iff_eq] at hs
        exact hs.1.resolve_left h4
      have hl := he.2 h6
      rw [if_pos hs, h.loadNat_saLen hs (by rw [hl]; decide), Option.some_bind, hl, if_neg (by decide)]
    · rw [if_neg hs]

theorem getD_eq_of_take_eq {l l' : List UInt8} {n i : Nat} (h : l.take n = l'.take n) (hi : i < n) :
    l.getD i 0 = l'.getD i 0 := by
  rw [List.getD_eq_getElem?_getD, List.getD_eq_getElem?_getD, ← List.getElem?_take_of_lt hi, h,
    List.getElem?_take_of_lt hi]

/-- Two endpoints that agree on a `struct sockaddr_in` hold the same socket address, if that is
what the second one holds. -/
theorem sockaddr_eq_of_take_eq {d e : Endpoint}
    (h : d.data.take SOCKADDR_IN_LEN = e.data.take SOCKADDR_IN_LEN) (hl : e.saLen = SOCKADDR_IN_LEN) :
    d.sockaddr = e.sockaddr := by
  have hf : d.saFamily = e.saFamily := congrArg UInt8.toNat (getD_eq_of_take_eq h (by decide))
  have hl' : d.saLen = e.saLen := congrArg UInt8.toNat (getD_eq_of_take_eq h (by decide))
  simp only [Endpoint.sockaddr, hf, hl', hl, h]

/-- **A header read back**: the walk reads the public key, the preshared key and keepalive
interval where flagged, and an endpoint unless it is `AF_INET6`, from a header written for a
peer with a well-formed endpoint. -/
theorem readPeer_of_headerAt {b : Block} {off : Nat} {peer : Wgpeer} (h : HeaderAt b off peer)
    (he : peer.endpoint.WellFormed) :
    ∃ q, readPeer b off = some q ∧ q.allowedips = [] ∧
      FlatPeer peer { q with allowedips := peer.allowedips.map Wgallowedip.decoded } := by
  obtain ⟨hpub, hpsk, hpka, hep⟩ := hasFlag_peerFlagsWord peer
  have hn := loadNat_of_inside h.inside
  simp only [readPeer, h.flags, hpub, hpsk, hpka, hep, h.publicKey, hn pRxbytes (by decide),
    hn pTxbytes (by decide), hn pLastHandshakeSec (by decide), hn pLastHandshakeNsec (by decide),
    Option.bind_eq_bind, Option.some_bind, Option.map_some', if_true, Option.pure_def,
    ite_map_eq_some h.presharedKey, ite_map_eq_some h.keepalive, readEndpoint_eq h he]
  refine ⟨_, rfl, ?_, ⟨?_, fun hc => ?_, fun hc => ?_, ?_, rfl⟩⟩
  · simp only [apply_ite Wgpeer.allowedips, ite_self]; rfl
  · simp only [apply_ite Wgpeer.publicKey, ite_self]; exact Bytes.copyIn_full _ _
  · simp only [hc, if_true, apply_ite Wgpeer.presharedKey, ite_self]; exact Bytes.copyIn_full _ _
  · simp only [hc, if_true, apply_ite Wgpeer.persistentKeepaliveInterval, ite_self]
    exact UInt16.ofNat_toNat _
  · simp only [apply_ite Wgpeer.endpoint, ite_self]
    by_cases h4 : peer.endpoint.saFamily = AF_INET
    · rw [if_pos h4, if_neg (by rw [h4]; decide), sockaddr_eq_of_take_eq ?_ (he.1 h4)]
      rw [Bytes.copyIn_data _ (by simp [SOCKADDR_IN_LEN, SOCKADDR_IN6_LEN]),
        List.take_left' (by simp [SOCKADDR_IN_LEN, SOCKADDR_IN6_LEN])]
    · rw [if_neg h4, show Wgpeer.zero.endpoint.sockaddr = none by decide]
      split_ifs with h6
      · rfl
      · simp [Endpoint.sockaddr, h4, h6]

/-- **A record read back**: a valid allowed-ip comes back as a backend rebuilds it. -/
theorem readAip_of_aipAt {b : Block} {off : Nat} {aip : Wgallowedip} (h : AipAt b off aip)
    (hv : aip.valid) : readAip b off = some aip.decoded := by
  have hip := h.ip
  rcases family_of_valid hv with h4 | h6
  · rw [show aip.addr.length = aIpv4.width by simp [Wgallowedip.addr, h4, aIpv4]] at hip
    simp only [readAip, h.af, h.cidr, if_pos h4, hip, Option.bind_eq_bind, Option.some_bind,
      Option.pure_def, UInt16.ofNat_toNat, UInt8.ofNat_toNat]
    rfl
  · have h4 : aip.family.toNat ≠ AF_INET := by rw [h6]; decide
    rw [show aip.addr.length = aIpv6.width by simp [Wgallowedip.addr, h4, aIpv6]] at hip
    simp only [readAip, h.af, h.cidr, if_neg h4, if_pos h6, show aIpv6.offset = aIpv4.offset from rfl,
      hip, Option.bind_eq_bind, Option.some_bind, Option.pure_def, UInt16.ofNat_toNat,
      UInt8.ofNat_toNat]
    rfl

/-- **The allowed-ip loop read back**: over the records written for valid allowed-ips, with
every `calloc` succeeding, the loop links each rebuilt allowed-ip at the end of the peer's
chain and stops past the last record. -/
theorem readAips_of_aipsAt {b : Block} (e : Nat) {off : Nat} {aips : List Wgallowedip}
    (h : AipsAt b off aips) (hv : ∀ a ∈ aips, a.valid) (peer : Wgpeer) :
    ∃ last, readAips b ⟨[], e⟩ peer off aips.length = some (⟨[], e⟩, some
      ({ peer with allowedips := peer.allowedips ++ aips.map Wgallowedip.decoded,
                   lastAllowedip := last }, off + WG_AIP_IO_LEN * aips.length)) := by
  induction aips generalizing off peer with
  | nil => exact ⟨peer.lastAllowedip, by simp [readAips]⟩
  | cons aip aips ih =>
    obtain ⟨last, hl⟩ := ih h.2 (fun a ha => hv a (List.mem_cons_of_mem _ ha))
      { peer with allowedips := peer.allowedips ++ [aip.decoded],
                  lastAllowedip := some peer.allowedips.length }
    refine ⟨last, ?_⟩
    rw [List.length_cons, readAips.eq_2]
    simp only [Sys.calloc, readAip_of_aipAt h.1 (hv aip (List.mem_cons_self _ _)),
      Option.bind_eq_bind, Option.some_bind, hl, List.append_assoc, List.map_cons,
      List.singleton_append, Nat.mul_succ]
    congr 4
    omega

/-- **The peer loop read back**: over the records written for peers with valid allowed-ips
and well-formed endpoints, with every `calloc` succeeding, the loop links each peer it reads
back at the end of the device's chain. -/
theorem readPeers_of_peersAt {b : Block} (e : Nat) {off : Nat} {peers : List Wgpeer}
    (h : PeersAt b off peers) (hv : ∀ p ∈ peers, ∀ a ∈ p.allowedips, a.valid)
    (he : ∀ p ∈ peers, p.endpoint.WellFormed) (dev : Wgdevice) :
    ∃ qs last, readPeers b ⟨[], e⟩ dev off peers.length =
        some (⟨[], e⟩, some { dev with peers := dev.peers ++ qs, lastPeer := last }) ∧
      List.Forall₂ FlatPeer peers qs := by
  induction peers generalizing off dev with
  | nil => exact ⟨[], dev.lastPeer, by simp [readPeers], .nil⟩
  | cons p peers ih =>
    obtain ⟨hh, hc, ha, hp⟩ := h
    obtain ⟨q, hq, hnil, hflat⟩ := readPeer_of_headerAt hh (he p (List.mem_cons_self _ _))
    obtain ⟨last, hl⟩ := readAips_of_aipsAt e ha (hv p (List.mem_cons_self _ _)) q
    rw [show off + WG_PEER_IO_LEN + WG_AIP_IO_LEN * p.allowedips.length = off + peerLen p from
      (Nat.add_assoc _ _ _)] at hl
    obtain ⟨qs, last', hr, hall⟩ := ih hp (fun p' hp' => hv p' (List.mem_cons_of_mem _ hp'))
      (fun p' hp' => he p' (List.mem_cons_of_mem _ hp'))
      { dev with peers := dev.peers ++ [{ q with
                   allowedips := q.allowedips ++ p.allowedips.map Wgallowedip.decoded,
                   lastAllowedip := last }],
                 lastPeer := some dev.peers.length }
    have hpeer : FlatPeer p { q with
        allowedips := q.allowedips ++ p.allowedips.map Wgallowedip.decoded, lastAllowedip := last } :=
      ⟨hflat.publicKey, hflat.presharedKey, hflat.keepalive, hflat.endpoint, by
        simp only [hnil, List.nil_append]⟩
    refine ⟨_ :: qs, last', ?_, .cons hpeer hall⟩
    rw [List.length_cons, readPeers.eq_2]
    simp only [Sys.calloc, hq, hc, hl, hr, Option.bind_eq_bind, Option.some_bind, List.append_assoc,
      List.singleton_append]

/-- A device read back by the walk as the device `dev` that `kernel_set_device` wrote: the
name the GET is asked for, the flagged interface fields, and the peers in order. -/
structure FlatDevice (dev d : Wgdevice) : Prop where
  name : d.name = dev.name
  privateKey : dev.flags.hasPrivateKey → d.privateKey = dev.privateKey
  listenPort : dev.flags.hasListenPort → d.listenPort = dev.listenPort
  fwmark : dev.flags.hasFwmark → d.fwmark = dev.fwmark
  peers : List.Forall₂ FlatPeer dev.peers d.peers

/-- **The walk read back**: over a buffer holding what `kernel_set_device` writes for a device
with valid allowed-ips and well-formed endpoints, with every `calloc` succeeding, the walk
gives back the device. -/
theorem readInterface_of_layout {b : Block} {dev : Wgdevice} (hi : InterfaceAt b dev)
    (hc : b.loadNat 0 iPeersCount = some dev.peers.length)
    (hp : PeersAt b WG_INTERFACE_IO_LEN dev.peers) (hv : ∀ p ∈ dev.peers, ∀ a ∈ p.allowedips, a.valid)
    (he : ∀ p ∈ dev.peers, p.endpoint.WellFormed) (e : Nat) :
    ∃ d, readInterface b ⟨[], e⟩ (dev.name.chars ++ [0]) = some (⟨[], e⟩, some d) ∧
      FlatDevice dev d := by
  obtain ⟨hrt, hport, hpub, hpriv⟩ := hasFlag_interfaceFlagsWord dev
  simp only [readInterface, Sys.calloc, hi.flags, hrt, hport, hpub, hpriv, hc,
    Option.bind_eq_bind, Option.some_bind, Option.pure_def, Bool.false_eq_true, if_false,
    ite_map_eq_some hi.fwmark, ite_map_eq_some hi.listenPort, ite_map_eq_some hi.privateKey]
  obtain ⟨qs, last, hr, hall⟩ := readPeers_of_peersAt e hp hv he _
  refine ⟨_, hr, ⟨?_, fun hc => ?_, fun hc => ?_, fun hc => ?_, ?_⟩⟩
  · simp only [apply_ite Wgdevice.name, ite_self]
    exact IfName.ofCString_chars _
  · simp only [hc, if_true]
    exact Bytes.copyIn_full _ _
  · simp only [hc, if_true, apply_ite Wgdevice.listenPort, ite_self]
    exact UInt16.ofNat_toNat _
  · simp only [hc, if_true, apply_ite Wgdevice.fwmark, ite_self]
    exact UInt32.ofNat_toNat _
  · simp only [apply_ite Wgdevice.peers, ite_self]
    exact hall

/-! ### The round trip -/

/-- **What the OpenBSD GET reads back of what the SET wrote.**  For a device whose size fits
`size_t`, with valid allowed-ips and well-formed endpoints, `kernel_set_device` hands `SIOCSWG`
a buffer of `wgd_size` bytes, every store having landed inside it.  The walk of
`kernel_get_device` over that buffer, with every `calloc` succeeding, gives back the flagged
interface fields and the peers in order, each with its public key, its flagged preshared key
and keepalive interval, and its allowed-ips, and with its endpoint unless that is `AF_INET6`:
an IPv6 endpoint comes back absent. -/
theorem set_then_get_drops_ipv6_endpoints (dev : Wgdevice) (hsize : flatSize dev < 2 ^ 64)
    (hv : ∀ p ∈ dev.peers, ∀ a ∈ p.allowedips, a.valid)
    (he : ∀ p ∈ dev.peers, p.endpoint.WellFormed) (ioctlErrno : Option Nat) (e : Nat) :
    ∃ b d, kernelSetDevice none true ioctlErrno dev =
        some ((ioctlErrno.map fun e => -(e : Int)).getD 0, some ⟨dev.name, wgdSize dev, b⟩) ∧
      b.size = (wgdSize dev).toNat ∧
      readInterface b ⟨[], e⟩ (dev.name.chars ++ [0]) = some (⟨[], e⟩, some d) ∧
      FlatDevice dev d := by
  have hw : (wgdSize dev).toNat = flatSize dev := by rw [toNat_wgdSize, Nat.mod_eq_of_lt hsize]
  obtain ⟨b, hb, hbs, hlayout⟩ := serialize_spec dev hsize
  obtain ⟨hi, hc, hp⟩ := hlayout hv
  obtain ⟨d, hr, hd⟩ := readInterface_of_layout hi hc hp hv he e
  exact ⟨b, d, by simp only [kernelSetDevice, if_true, hw, hb, Option.bind_eq_bind, Option.some_bind,
    Option.pure_def], hbs.trans hw.symm, hr, hd⟩

/-- A device with one peer, whose endpoint is the `AF_INET6` socket address `[::]:0`. -/
def ipv6PeerDevice : Wgdevice :=
  { Wgdevice.zero with
    peers := [{ Wgpeer.zero with endpoint := ⟨[28, 10] ++ List.replicate 26 0, by decide⟩ }] }

theorem set_then_get_drops_ipv6_endpoints_onePeer :
    ∃ b d, kernelSetDevice none true none ipv6PeerDevice =
        some (0, some ⟨ipv6PeerDevice.name, wgdSize ipv6PeerDevice, b⟩) ∧
      readInterface b ⟨[], 0⟩ (ipv6PeerDevice.name.chars ++ [0]) = some (⟨[], 0⟩, some d) ∧
      ipv6PeerDevice.peers.map (·.endpoint.sockaddr) ≠ [none] ∧
      d.peers.map (·.endpoint.sockaddr) = [none] := by
  obtain ⟨b, d, hs, -, hr, hd⟩ := set_then_get_drops_ipv6_endpoints ipv6PeerDevice (by decide)
    (by simp [ipv6PeerDevice, Wgpeer.zero])
    (fun p hp => by
      simp only [ipv6PeerDevice, List.mem_singleton] at hp
      subst hp
      exact ⟨fun h => absurd h (by decide), fun _ => rfl⟩) none 0
  refine ⟨b, d, hs, hr, by decide, ?_⟩
  have hpeers := hd.peers
  simp only [ipv6PeerDevice] at hpeers
  obtain ⟨q, l, hq, hl, hd'⟩ := List.forall₂_cons_left_iff.1 hpeers
  rw [hd', List.forall₂_nil_left_iff.1 hl, List.map_singleton, hq.endpoint, if_pos (by decide)]

end Openbsd

end WireguardIpc

/-
`kernel_set_device` on OpenBSD: the device written into one flat buffer for `SIOCSWG`.

The code counts the buffer's size first: the interface, and each peer with a record for each
of its allowed-ips, valid or not.  It `calloc`s the buffer and fills it in place: the
interface's fields, then each peer's header, its records, and its `p_aips_count`, the next
peer's header starting where the last record written ends.  An allowed-ip of neither family
gets its `a_af` and `a_cidr` written into the next free record and is not counted; the next
allowed-ip, or the next peer's header, is then written over them.

Every store stays inside the buffer (`serialize_spec`), whatever the allowed-ips: the records
written for a peer are at most the records counted for it (`writeAips_spec`).  What the stores
leave where the walk of `kernel_get_device` reads is recorded field by field: `InterfaceAt`
for the interface, `HeaderAt` for a peer's header, `AipAt` for a record, `PeersAt` for the
whole chain.  Each survives the stores that come after it, which all lie past the bytes it
reads, and `Openbsd/RoundTrip.lean` reads the device back from them.  Not proved here: the
layout of a device with an allowed-ip of neither family, whose skipped record the next one is
written over.
-/
import WireguardIpc.Openbsd.Flat

namespace WireguardIpc

namespace Openbsd

open Block

/-! ### The model -/

/-- The bytes a peer takes in the buffer: its header and a record per allowed-ip. -/
def peerLen (peer : Wgpeer) : Nat := WG_PEER_IO_LEN + WG_AIP_IO_LEN * peer.allowedips.length

/-- The bytes the buffer for a device takes. -/
def flatSize (dev : Wgdevice) : Nat := WG_INTERFACE_IO_LEN + (dev.peers.map peerLen).sum

/-- `wgdata.wgd_size` as the two counting loops leave it, in `size_t`. -/
def wgdSize (dev : Wgdevice) : UInt64 :=
  dev.peers.foldl (fun size peer => peer.allowedips.foldl (fun size _ => size + UInt64.ofNat WG_AIP_IO_LEN)
    (size + UInt64.ofNat WG_PEER_IO_LEN)) (UInt64.ofNat WG_INTERFACE_IO_LEN)

/-- `if (cond) { memcpy(field, src); flags |= bit; }`, for a field at `off` in the structure
at `base` (an integer field is assigned its bytes). -/
def putFlagged (b : Block) (base : Nat) (flags : Field) (cond : Bool) (off : Nat) (src : List UInt8)
    (bit : Nat) : Option Block :=
  if cond then do
    let b ← b.store (base + off) src
    b.orNat base flags bit
  else pure b

/-- `if (cond) flags |= bit;`. -/
def orIf (b : Block) (base : Nat) (flags : Field) (cond : Bool) (bit : Nat) : Option Block :=
  if cond then b.orNat base flags bit else pure b

/-- The interface's fields, written into the zeroed header. -/
def writeInterface (dev : Wgdevice) (b : Block) : Option Block := do
  let b ← putFlagged b 0 iFlags dev.flags.hasPrivateKey iPrivate.offset dev.privateKey.data
    WG_INTERFACE_HAS_PRIVATE
  let b ← putFlagged b 0 iFlags dev.flags.hasListenPort iPort.offset
    (leBytes iPort.width dev.listenPort.toNat) WG_INTERFACE_HAS_PORT
  let b ← putFlagged b 0 iFlags dev.flags.hasFwmark iRtable.offset
    (leBytes iRtable.width dev.fwmark.toNat) WG_INTERFACE_HAS_RTABLE
  orIf b 0 iFlags dev.flags.replacePeers WG_INTERFACE_REPLACE_PEERS

/-- `(sa_family == AF_INET || sa_family == AF_INET6) && sa_len <= sizeof(wg_peer->p_endpoint)`. -/
def endpointSent (e : Endpoint) : Bool :=
  (e.saFamily == AF_INET || e.saFamily == AF_INET6) && decide (e.saLen ≤ pEndpoint.width)

/-- A peer's header at `off`: `p_flags = WG_PEER_HAS_PUBLIC`, its public key, and the fields its
flags ask for. -/
def writePeer (b : Block) (off : Nat) (peer : Wgpeer) : Option Block := do
  let b ← b.storeNat off pFlags WG_PEER_HAS_PUBLIC
  let b ← b.store (off + pPublic.offset) peer.publicKey.data
  let b ← putFlagged b off pFlags peer.flags.hasPresharedKey pPsk.offset peer.presharedKey.data
    WG_PEER_HAS_PSK
  let b ← putFlagged b off pFlags peer.flags.hasPersistentKeepaliveInterval pPka.offset
    (leBytes pPka.width peer.persistentKeepaliveInterval.toNat) WG_PEER_HAS_PKA
  let b ← putFlagged b off pFlags (endpointSent peer.endpoint) pEndpoint.offset
    (peer.endpoint.data.take peer.endpoint.saLen) WG_PEER_HAS_ENDPOINT
  let b ← orIf b off pFlags peer.flags.replaceAllowedips WG_PEER_REPLACE_AIPS
  orIf b off pFlags peer.flags.removeMe WG_PEER_REMOVE

/-- The allowed-ip loop of a peer, writing records from `off`: the block, `aip_count` and
where `wg_aip` ends.  A record of neither family is left where the next one is written. -/
def writeAips (b : Block) (off count : Nat) : List Wgallowedip → Option (Block × Nat × Nat)
  | [] => some (b, count, off)
  | aip :: aips => do
    let b ← b.storeNat off aAf aip.family.toNat
    let b ← b.storeNat off aCidr aip.cidr.toNat
    if aip.family.toNat = AF_INET then
      let b ← b.store (off + aIpv4.offset) (aip.ip.data.take aIpv4.width)
      writeAips b (off + WG_AIP_IO_LEN) (count + 1) aips
    else if aip.family.toNat = AF_INET6 then
      let b ← b.store (off + aIpv6.offset) (aip.ip.data.take aIpv6.width)
      writeAips b (off + WG_AIP_IO_LEN) (count + 1) aips
    else writeAips b off count aips

/-- The peer loop, writing headers from `off`: the block and `peer_count`. -/
def writePeers (b : Block) (off count : Nat) : List Wgpeer → Option (Block × Nat)
  | [] => some (b, count)
  | peer :: peers => do
    let b ← writePeer b off peer
    let (b, aipCount, next) ← writeAips b (off + WG_PEER_IO_LEN) 0 peer.allowedips
    let b ← b.storeNat off pAipsCount aipCount
    writePeers b next (count + 1) peers

/-- The device written into the zeroed buffer: the interface, the peers, `i_peers_count`. -/
def serialize (dev : Wgdevice) (b : Block) : Option Block := do
  let b ← writeInterface dev b
  let (b, count) ← writePeers b WG_INTERFACE_IO_LEN 0 dev.peers
  b.storeNat 0 iPeersCount count

/-- `struct wg_data_io` as `SIOCSWG` is handed it. -/
structure WgDataIo where
  name : IfName
  size : UInt64
  interface : Block

/-- `kernel_set_device(dev)` on OpenBSD, given `errno` when the datagram socket cannot be
opened, whether the `calloc` succeeds, and the `errno` of a failed `SIOCSWG`: the return value
and what the ioctl is handed; `none` when a store falls outside the buffer. -/
def kernelSetDevice (sockErrno : Option Nat) (callocOk : Bool) (ioctlErrno : Option Nat)
    (dev : Wgdevice) : Option (Int × Option WgDataIo) :=
  match sockErrno with
  | some e => some (-(e : Int), none)
  | none =>
    if callocOk then do
      let b ← serialize dev (calloc (wgdSize dev).toNat)
      pure ((ioctlErrno.map fun e => -(e : Int)).getD 0, some ⟨dev.name, wgdSize dev, b⟩)
    else some (-(ENOMEM : Int), none)

/-! ### The size -/

theorem toNat_foldl_add {α : Type} (l : List α) (s c : UInt64) :
    (l.foldl (fun size _ => size + c) s).toNat = (s.toNat + c.toNat * l.length) % 2 ^ 64 := by
  induction l generalizing s with
  | nil => exact (Nat.mod_eq_of_lt (UInt64.toNat_lt_size s)).symm
  | cons a l ih =>
    rw [List.foldl_cons, ih, UInt64.toNat_add, List.length_cons, Nat.mul_succ,
      show UInt64.size = 2 ^ 64 from rfl, Nat.mod_add_mod]
    congr 1; omega

/-- **`wgd_size` is the size of the layout**, modulo `2^64`. -/
theorem toNat_wgdSize (dev : Wgdevice) : (wgdSize dev).toNat = flatSize dev % 2 ^ 64 := by
  suffices h : ∀ (peers : List Wgpeer) (s : UInt64),
      (peers.foldl (fun size peer => peer.allowedips.foldl (fun size _ => size +
        UInt64.ofNat WG_AIP_IO_LEN) (size + UInt64.ofNat WG_PEER_IO_LEN)) s).toNat =
        (s.toNat + (peers.map peerLen).sum) % 2 ^ 64 from h dev.peers _
  intro peers
  induction peers with
  | nil => exact fun s => (Nat.mod_eq_of_lt (UInt64.toNat_lt_size s)).symm
  | cons p peers ih =>
    intro s
    rw [List.foldl_cons, ih, toNat_foldl_add, UInt64.toNat_add,
      show (UInt64.ofNat WG_PEER_IO_LEN).toNat = WG_PEER_IO_LEN from rfl,
      show (UInt64.ofNat WG_AIP_IO_LEN).toNat = WG_AIP_IO_LEN from rfl]
    simp only [List.map_cons, List.sum_cons, peerLen, UInt64.size]
    omega

/-! ### Flags words -/

theorem flag_or_lt {w bit : Nat} (hw : w < 64) (hb : bit < 64) : w ||| bit < 64 :=
  Nat.or_lt_two_pow (show w < 2 ^ 6 from hw) hb

theorem or_ite_lt {w bit : Nat} (c : Bool) (hw : w < 64) (hb : bit < 64) :
    (w ||| if c then bit else 0) < 64 :=
  flag_or_lt hw (by cases c <;> simp [hb])

/-- A flags word of six bits fits every flags field. -/
theorem or_lt_pow {w bit : Nat} {f : Field} (hw : w < 64) (hb : bit < 64) (hf : 0 < f.width) :
    w ||| bit < 256 ^ f.width :=
  lt_of_lt_of_le (flag_or_lt hw hb) (le_trans (by decide) (Nat.pow_le_pow_right (by decide) hf))

/-- **`if (cond) { memcpy(field, src); flags |= bit; }`**: the flags gain `bit` when `cond`
holds, the field then holds `src`, and nothing else changes. -/
theorem putFlagged_spec {b : Block} {base : Nat} {flags : Field} {w : Nat}
    (hw : b.loadNat base flags = some w) (cond : Bool) (off : Nat) (src : List UInt8) (bit : Nat)
    (hbit : w ||| bit < 256 ^ flags.width) (hsrc : base + off + src.length ≤ b.size)
    (hdisj : flags.offset + flags.width ≤ off) :
    ∃ b', putFlagged b base flags cond off src bit = some b' ∧
      b'.loadNat base flags = some (w ||| if cond then bit else 0) ∧
      (cond → b'.load (base + off) src.length = some src) ∧
      Frame b b' fun i => flags.Covers base i ∨ (base + off ≤ i ∧ i < base + off + src.length) := by
  cases cond with
  | false => exact ⟨b, rfl, by rw [hw]; simp, nofun, Frame.refl _ _⟩
  | true =>
    obtain ⟨b₁, h₁⟩ := store_isSome hsrc
    have hf₁ := frame_store h₁
    obtain ⟨b₂, h₂, hw₂, hf₂⟩ := orNat_spec ((hf₁.loadNat_eq fun i hc hr => by
      simp only [Field.Covers] at hc; omega).trans hw) bit
    refine ⟨b₂, ?_, by rw [hw₂, Nat.mod_eq_of_lt hbit]; simp, fun _ => ?_,
      (hf₁.trans hf₂).mono fun i hi => hi.elim .inr .inl⟩
    · simp only [putFlagged, if_true, h₁, Option.bind_eq_bind, Option.some_bind, h₂]
    · rw [hf₂.load_eq fun i h₁ h₂ hc => by simp only [Field.Covers] at hc; omega, load_store_self h₁]

/-- `if (cond) flags |= bit;`: the flags gain `bit` when `cond` holds. -/
theorem orIf_spec {b : Block} {base : Nat} {flags : Field} {w : Nat}
    (hw : b.loadNat base flags = some w) (cond : Bool) (bit : Nat)
    (hbit : w ||| bit < 256 ^ flags.width) :
    ∃ b', orIf b base flags cond bit = some b' ∧
      b'.loadNat base flags = some (w ||| if cond then bit else 0) ∧ Frame b b' (flags.Covers base) := by
  cases cond with
  | false => exact ⟨b, rfl, by rw [hw]; simp, Frame.refl _ _⟩
  | true =>
    obtain ⟨b', h, hw', hf⟩ := orNat_spec hw bit
    exact ⟨b', by simp only [orIf, if_true, h], by rw [hw', Nat.mod_eq_of_lt hbit]; simp, hf⟩

/-! ### The interface -/

/-- `i_flags` as `kernel_set_device` leaves it for `dev`. -/
def interfaceFlagsWord (dev : Wgdevice) : Nat :=
  0 ||| (if dev.flags.hasPrivateKey then WG_INTERFACE_HAS_PRIVATE else 0) |||
    (if dev.flags.hasListenPort then WG_INTERFACE_HAS_PORT else 0) |||
    (if dev.flags.hasFwmark then WG_INTERFACE_HAS_RTABLE else 0) |||
    (if dev.flags.replacePeers then WG_INTERFACE_REPLACE_PEERS else 0)

/-- What the walk of `kernel_get_device` reads of the interface header, as
`kernel_set_device` writes it for `dev`; `i_peers_count` apart, which is written last. -/
structure InterfaceAt (b : Block) (dev : Wgdevice) : Prop where
  inside : WG_INTERFACE_IO_LEN ≤ b.size
  flags : b.loadNat 0 iFlags = some (interfaceFlagsWord dev)
  privateKey : dev.flags.hasPrivateKey →
    b.load iPrivate.offset iPrivate.width = some dev.privateKey.data
  listenPort : dev.flags.hasListenPort → b.loadNat 0 iPort = some dev.listenPort.toNat
  fwmark : dev.flags.hasFwmark → b.loadNat 0 iRtable = some dev.fwmark.toNat

theorem InterfaceAt.frame {b b' : Block} {dev : Wgdevice} {t : Nat → Prop} (h : InterfaceAt b dev)
    (hf : Frame b b' t) (ht : ∀ i, i < iPeersCount.offset → ¬ t i) : InterfaceAt b' dev where
  inside := hf.1 ▸ h.inside
  flags := (hf.loadNat_eq fun i hi => ht i (by
    simp only [Field.Covers, iFlags, iPeersCount] at hi ⊢; omega)).trans h.flags
  privateKey hc := (hf.load_eq fun i _ hi => ht i (by
    simp only [iPrivate, iPeersCount] at hi ⊢; omega)).trans (h.privateKey hc)
  listenPort hc := (hf.loadNat_eq fun i hi => ht i (by
    simp only [Field.Covers, iPort, iPeersCount] at hi ⊢; omega)).trans (h.listenPort hc)
  fwmark hc := (hf.loadNat_eq fun i hi => ht i (by
    simp only [Field.Covers, iRtable, iPeersCount] at hi ⊢; omega)).trans (h.fwmark hc)

/-- **The interface's fields**, written into a header whose flags are zero: each store lies
below `i_peers_count`, and the header then holds what the walk reads. -/
theorem writeInterface_spec (dev : Wgdevice) {b : Block} (hsize : WG_INTERFACE_IO_LEN ≤ b.size)
    (hz : b.loadNat 0 iFlags = some 0) :
    ∃ b', writeInterface dev b = some b' ∧ Frame b b' (· < iPeersCount.offset) ∧
      InterfaceAt b' dev := by
  simp only [WG_INTERFACE_IO_LEN] at hsize
  obtain ⟨b₁, h₁, hw₁, hk₁, hf₁⟩ := putFlagged_spec hz dev.flags.hasPrivateKey iPrivate.offset
    dev.privateKey.data WG_INTERFACE_HAS_PRIVATE (by decide)
    (by simp only [iPrivate, Bytes.length_data, WG_KEY_LEN]; omega) (by decide)
  obtain ⟨b₂, h₂, hw₂, hk₂, hf₂⟩ := putFlagged_spec hw₁ dev.flags.hasListenPort iPort.offset
    (leBytes iPort.width dev.listenPort.toNat) WG_INTERFACE_HAS_PORT
    (or_lt_pow (or_ite_lt _ (by decide) (by decide)) (by decide) (by decide))
    (by rw [hf₁.1]; simp only [iPort, length_leBytes]; omega) (by decide)
  obtain ⟨b₃, h₃, hw₃, hk₃, hf₃⟩ := putFlagged_spec hw₂ dev.flags.hasFwmark iRtable.offset
    (leBytes iRtable.width dev.fwmark.toNat) WG_INTERFACE_HAS_RTABLE
    (or_lt_pow (or_ite_lt _ (or_ite_lt _ (by decide) (by decide)) (by decide)) (by decide) (by decide))
    (by rw [hf₂.1, hf₁.1]; simp only [iRtable, length_leBytes]; omega) (by decide)
  obtain ⟨b₄, h₄, hw₄, hf₄⟩ := orIf_spec hw₃ dev.flags.replacePeers WG_INTERFACE_REPLACE_PEERS
    (or_lt_pow (or_ite_lt _ (or_ite_lt _ (or_ite_lt _ (by decide) (by decide)) (by decide))
      (by decide)) (by decide) (by decide))
  -- the stores after a field keep away from it
  have f₂₄ : Frame b₁ b₄ (· < iRtable.offset + iRtable.width) :=
    ((hf₂.trans hf₃).trans hf₄).mono fun i hi => by
      simp only [Field.Covers, iFlags, iPort, iRtable, length_leBytes] at hi ⊢; omega
  have f₃₄ : Frame b₂ b₄ fun i => i < iFlags.width ∨ iRtable.Covers 0 i :=
    (hf₃.trans hf₄).mono fun i hi => by
      simp only [Field.Covers, iFlags, iRtable, length_leBytes] at hi ⊢; omega
  refine ⟨b₄, by simp only [writeInterface, h₁, h₂, h₃, h₄, Option.bind_eq_bind, Option.some_bind],
    (hf₁.trans f₂₄).mono fun i hi => by
      simp only [Field.Covers, iFlags, iPrivate, iRtable, iPeersCount, Bytes.length_data,
        WG_KEY_LEN] at hi ⊢; omega,
    ⟨by rw [(hf₁.trans f₂₄).1]; exact hsize, hw₄, fun hc => ?_, fun hc => ?_, fun hc => ?_⟩⟩
  · rw [f₂₄.load_eq fun i h₁ _ hi => by simp only [iPrivate, iRtable] at h₁ hi; omega]
    simpa using hk₁ hc
  · rw [f₃₄.loadNat_eq fun i hi hi' => by
      simp only [Field.Covers, iFlags, iPort, iRtable] at hi hi'; omega]
    exact loadNat_of_load_leBytes (hk₂ hc) dev.listenPort.toNat_lt_size
  · rw [hf₄.loadNat_eq fun i hi hi' => by simp only [Field.Covers, iFlags, iRtable] at hi hi'; omega]
    exact loadNat_of_load_leBytes (hk₃ hc) dev.fwmark.toNat_lt_size

/-! ### A peer's header -/

/-- `p_flags` as `kernel_set_device` leaves it for `peer`. -/
def peerFlagsWord (peer : Wgpeer) : Nat :=
  WG_PEER_HAS_PUBLIC ||| (if peer.flags.hasPresharedKey then WG_PEER_HAS_PSK else 0) |||
    (if peer.flags.hasPersistentKeepaliveInterval then WG_PEER_HAS_PKA else 0) |||
    (if endpointSent peer.endpoint then WG_PEER_HAS_ENDPOINT else 0) |||
    (if peer.flags.replaceAllowedips then WG_PEER_REPLACE_AIPS else 0) |||
    (if peer.flags.removeMe then WG_PEER_REMOVE else 0)

theorem saLen_le_of_endpointSent {e : Endpoint} (h : endpointSent e) : e.saLen ≤ pEndpoint.width := by
  simp only [endpointSent, Bool.and_eq_true, decide_eq_true_eq] at h
  exact h.2

/-- What the walk reads of a peer's header at `off`, as `kernel_set_device` writes it for
`peer`; `p_aips_count` apart, which is written after the peer's allowed-ips. -/
structure HeaderAt (b : Block) (off : Nat) (peer : Wgpeer) : Prop where
  inside : off + WG_PEER_IO_LEN ≤ b.size
  flags : b.loadNat off pFlags = some (peerFlagsWord peer)
  publicKey : b.load (off + pPublic.offset) pPublic.width = some peer.publicKey.data
  presharedKey : peer.flags.hasPresharedKey →
    b.load (off + pPsk.offset) pPsk.width = some peer.presharedKey.data
  keepalive : peer.flags.hasPersistentKeepaliveInterval →
    b.loadNat off pPka = some peer.persistentKeepaliveInterval.toNat
  endpoint : endpointSent peer.endpoint →
    b.load (off + pEndpoint.offset) peer.endpoint.saLen =
      some (peer.endpoint.data.take peer.endpoint.saLen)

theorem HeaderAt.frame {b b' : Block} {off : Nat} {peer : Wgpeer} {t : Nat → Prop}
    (h : HeaderAt b off peer) (hf : Frame b b' t)
    (ht : ∀ i, off ≤ i → i < off + pAipsCount.offset → ¬ t i) : HeaderAt b' off peer where
  inside := hf.1 ▸ h.inside
  flags := (hf.loadNat_eq fun i hi => ht i (by simp only [Field.Covers, pFlags] at hi; omega) (by
    simp only [Field.Covers, pFlags, pAipsCount] at hi ⊢; omega)).trans h.flags
  publicKey := (hf.load_eq fun i h₁ h₂ => ht i (by omega) (by
    simp only [pPublic, pAipsCount] at h₂ ⊢; omega)).trans h.publicKey
  presharedKey hc := (hf.load_eq fun i h₁ h₂ => ht i (by omega) (by
    simp only [pPsk, pAipsCount] at h₂ ⊢; omega)).trans (h.presharedKey hc)
  keepalive hc := (hf.loadNat_eq fun i hi => ht i (by simp only [Field.Covers] at hi; omega) (by
    simp only [Field.Covers, pPka, pAipsCount] at hi ⊢; omega)).trans (h.keepalive hc)
  endpoint hc := (hf.load_eq fun i h₁ h₂ => ht i (by omega) (by
    have := saLen_le_of_endpointSent hc
    simp only [pEndpoint, pAipsCount] at h₂ this ⊢; omega)).trans (h.endpoint hc)

/-- **A peer's header**, written at `off`: each store lies below `p_aips_count`, and the header
then holds what the walk reads. -/
theorem writePeer_spec {b : Block} {off : Nat} (h : off + WG_PEER_IO_LEN ≤ b.size) (peer : Wgpeer) :
    ∃ b', writePeer b off peer = some b' ∧
      Frame b b' (fun i => off ≤ i ∧ i < off + pAipsCount.offset) ∧ HeaderAt b' off peer := by
  simp only [WG_PEER_IO_LEN] at h
  obtain ⟨b₁, h₁⟩ := storeNat_isSome WG_PEER_HAS_PUBLIC
    (show off + pFlags.offset + pFlags.width ≤ b.size by simp only [pFlags]; omega)
  have hf₁ := frame_storeNat h₁
  obtain ⟨b₂, h₂⟩ := store_isSome (show off + pPublic.offset + peer.publicKey.data.length ≤ b₁.size by
    rw [hf₁.1]; simp only [pPublic, Bytes.length_data, WG_KEY_LEN]; omega)
  have hf₂ := frame_store h₂
  have hw₂ : b₂.loadNat off pFlags = some WG_PEER_HAS_PUBLIC := by
    rw [hf₂.loadNat_eq fun i hi hi' => by simp only [Field.Covers, pFlags, pPublic] at hi hi'; omega,
      loadNat_storeNat_self h₁]
    rfl
  obtain ⟨b₃, h₃, hw₃, hk₃, hf₃⟩ := putFlagged_spec hw₂ peer.flags.hasPresharedKey pPsk.offset
    peer.presharedKey.data WG_PEER_HAS_PSK (by decide)
    (by rw [hf₂.1, hf₁.1]; simp only [pPsk, Bytes.length_data, WG_KEY_LEN]; omega) (by decide)
  obtain ⟨b₄, h₄, hw₄, hk₄, hf₄⟩ := putFlagged_spec hw₃ peer.flags.hasPersistentKeepaliveInterval
    pPka.offset (leBytes pPka.width peer.persistentKeepaliveInterval.toNat) WG_PEER_HAS_PKA
    (or_lt_pow (or_ite_lt _ (by decide) (by decide)) (by decide) (by decide))
    (by rw [hf₃.1, hf₂.1, hf₁.1]; simp only [pPka, length_leBytes]; omega) (by decide)
  obtain ⟨b₅, h₅, hw₅, hk₅, hf₅⟩ := putFlagged_spec hw₄ (endpointSent peer.endpoint)
    pEndpoint.offset (peer.endpoint.data.take peer.endpoint.saLen) WG_PEER_HAS_ENDPOINT
    (or_lt_pow (or_ite_lt _ (or_ite_lt _ (by decide) (by decide)) (by decide)) (by decide) (by decide))
    (by rw [hf₄.1, hf₃.1, hf₂.1, hf₁.1]; simp only [pEndpoint, List.length_take, Bytes.length_data,
      SOCKADDR_IN6_LEN]; omega) (by decide)
  obtain ⟨b₆, h₆, hw₆, hf₆⟩ := orIf_spec hw₅ peer.flags.replaceAllowedips WG_PEER_REPLACE_AIPS
    (or_lt_pow (or_ite_lt _ (or_ite_lt _ (or_ite_lt _ (by decide) (by decide)) (by decide))
      (by decide)) (by decide) (by decide))
  obtain ⟨b₇, h₇, hw₇, hf₇⟩ := orIf_spec hw₆ peer.flags.removeMe WG_PEER_REMOVE
    (or_lt_pow (or_ite_lt _ (or_ite_lt _ (or_ite_lt _ (or_ite_lt _ (by decide) (by decide))
      (by decide)) (by decide)) (by decide)) (by decide) (by decide))
  -- the stores after a field keep to the flags and to the fields after it
  have f₅₇ : Frame b₄ b₇ fun i => pFlags.Covers off i ∨ (off + pEndpoint.offset ≤ i ∧
      i < off + pEndpoint.offset + pEndpoint.width) :=
    (hf₅.trans (hf₆.trans hf₇)).mono fun i hi => by
      simp only [Field.Covers, pFlags, pEndpoint, List.length_take, Bytes.length_data,
        SOCKADDR_IN6_LEN] at hi ⊢; omega
  have f₃₇ : Frame b₂ b₇ fun i => pFlags.Covers off i ∨ (off + pPsk.offset ≤ i ∧
      i < off + pEndpoint.offset + pEndpoint.width) :=
    ((hf₃.trans hf₄).trans f₅₇).mono fun i hi => by
      simp only [Field.Covers, pFlags, pPsk, pPka, pEndpoint, Bytes.length_data, WG_KEY_LEN,
        length_leBytes] at hi ⊢; omega
  refine ⟨b₇, by simp only [writePeer, h₁, h₂, h₃, h₄, h₅, h₆, h₇, Option.bind_eq_bind,
      Option.some_bind],
    ((hf₁.trans hf₂).trans f₃₇).mono fun i hi => by
      simp only [Field.Covers, pFlags, pPublic, pPsk, pEndpoint, pAipsCount, Bytes.length_data,
        WG_KEY_LEN] at hi ⊢; omega,
    ⟨by rw [((hf₁.trans hf₂).trans f₃₇).1]; simp only [WG_PEER_IO_LEN]; omega, hw₇, ?_,
      fun hc => ?_, fun hc => ?_, fun hc => ?_⟩⟩
  · rw [f₃₇.load_eq fun i h₁ h₂ hi => by
      simp only [Field.Covers, pFlags, pPublic, pPsk] at h₁ h₂ hi; omega]
    simpa using load_store_self h₂
  · rw [(hf₄.trans f₅₇).load_eq fun i h₁ h₂ hi => by
      simp only [Field.Covers, pFlags, pPsk, pPka, pEndpoint, length_leBytes] at h₁ h₂ hi; omega]
    simpa using hk₃ hc
  · rw [f₅₇.loadNat_eq fun i hi hi' => by
      simp only [Field.Covers, pFlags, pPka, pEndpoint] at hi hi'; omega]
    exact loadNat_of_load_leBytes (hk₄ hc) peer.persistentKeepaliveInterval.toNat_lt_size
  · have hk := hk₅ hc
    rw [List.length_take, Bytes.length_data, Nat.min_eq_left
      (show peer.endpoint.saLen ≤ SOCKADDR_IN6_LEN from saLen_le_of_endpointSent hc)] at hk
    rw [(hf₆.trans hf₇).load_eq fun i h₁ _ hi => by
      simp only [Field.Covers, pFlags, pEndpoint] at h₁ hi; omega, hk]

/-! ### Allowed-ip records -/

theorem family_of_valid {aip : Wgallowedip} (h : aip.valid) :
    aip.family.toNat = AF_INET ∨ aip.family.toNat = AF_INET6 := by
  simp only [Wgallowedip.valid, Bool.or_eq_true, Bool.and_eq_true, beq_iff_eq,
    decide_eq_true_eq] at h
  exact h.imp And.left And.left

theorem length_addr_le (aip : Wgallowedip) : aip.addr.length ≤ aIpv6.width := by
  unfold Wgallowedip.addr
  split_ifs <;> simp [aIpv6]

/-- What the walk reads of an allowed-ip record at `off`, as written for `aip`. -/
structure AipAt (b : Block) (off : Nat) (aip : Wgallowedip) : Prop where
  inside : off + WG_AIP_IO_LEN ≤ b.size
  af : b.loadNat off aAf = some aip.family.toNat
  cidr : b.loadNat off aCidr = some aip.cidr.toNat
  ip : b.load (off + aIpv4.offset) aip.addr.length = some aip.addr

theorem AipAt.frame {b b' : Block} {off : Nat} {aip : Wgallowedip} {t : Nat → Prop}
    (h : AipAt b off aip) (hf : Frame b b' t)
    (ht : ∀ i, off ≤ i → i < off + WG_AIP_IO_LEN → ¬ t i) : AipAt b' off aip where
  inside := hf.1 ▸ h.inside
  af := (hf.loadNat_eq fun i hi => ht i (by simp only [Field.Covers] at hi; omega) (by
    simp only [Field.Covers, aAf, WG_AIP_IO_LEN] at hi ⊢; omega)).trans h.af
  cidr := (hf.loadNat_eq fun i hi => ht i (by simp only [Field.Covers] at hi; omega) (by
    simp only [Field.Covers, aCidr, WG_AIP_IO_LEN] at hi ⊢; omega)).trans h.cidr
  ip := (hf.load_eq fun i h₁ h₂ => ht i (by omega) (by
    have := length_addr_le aip
    simp only [aIpv4, aIpv6, WG_AIP_IO_LEN] at h₂ this ⊢; omega)).trans h.ip

/-- The records for `aips`, one after another from `off`. -/
def AipsAt (b : Block) : Nat → List Wgallowedip → Prop
  | _, [] => True
  | off, aip :: aips => AipAt b off aip ∧ AipsAt b (off + WG_AIP_IO_LEN) aips

theorem AipsAt.frame {b b' : Block} {t : Nat → Prop} (hf : Frame b b' t) {off : Nat}
    {aips : List Wgallowedip} (h : AipsAt b off aips)
    (ht : ∀ i, off ≤ i → i < off + WG_AIP_IO_LEN * aips.length → ¬ t i) : AipsAt b' off aips := by
  induction aips generalizing off with
  | nil => trivial
  | cons aip aips ih =>
    simp only [List.length_cons, Nat.mul_succ] at ht
    exact ⟨h.1.frame hf fun i h₁ h₂ => ht i h₁ (by omega),
      ih h.2 fun i h₁ h₂ => ht i (by omega) (by omega)⟩

/-- The loop's body for an allowed-ip of either family: its three fields, then the next record. -/
theorem writeAips_cons_of_family {b : Block} {off count : Nat} {aip : Wgallowedip}
    (aips : List Wgallowedip) (h : aip.family.toNat = AF_INET ∨ aip.family.toNat = AF_INET6) :
    writeAips b off count (aip :: aips) = (do
      let b ← b.storeNat off aAf aip.family.toNat
      let b ← b.storeNat off aCidr aip.cidr.toNat
      let b ← b.store (off + aIpv4.offset) aip.addr
      writeAips b (off + WG_AIP_IO_LEN) (count + 1) aips) := by
  rcases h with h | h
  · simp only [writeAips, if_pos h, Wgallowedip.addr, aIpv4]
  · have h4 : aip.family.toNat ≠ AF_INET := by rw [h]; decide
    simp only [writeAips, if_neg h4, if_pos h, Wgallowedip.addr, aIpv4, aIpv6,
      List.take_of_length_le (show aip.ip.data.length ≤ 16 by simp)]

/-- **The allowed-ip loop stays inside its records**: with room for a record per allowed-ip
from `off`, it stores only there and ends no further on.  When every allowed-ip is valid, it
writes and counts a record for each, and ends just past the last. -/
theorem writeAips_spec {b : Block} {off : Nat} (count : Nat) (aips : List Wgallowedip)
    (h : off + WG_AIP_IO_LEN * aips.length ≤ b.size) :
    ∃ b' c next, writeAips b off count aips = some (b', c, next) ∧
      off ≤ next ∧ next ≤ off + WG_AIP_IO_LEN * aips.length ∧
      Frame b b' (fun i => off ≤ i ∧ i < off + WG_AIP_IO_LEN * aips.length) ∧
      ((∀ a ∈ aips, a.valid) → c = count + aips.length ∧
        next = off + WG_AIP_IO_LEN * aips.length ∧ AipsAt b' off aips) := by
  induction aips generalizing b off count with
  | nil => exact ⟨b, count, off, rfl, le_rfl, by simp, Frame.refl _ _,
      fun _ => ⟨rfl, by simp, trivial⟩⟩
  | cons aip aips ih =>
    rw [List.length_cons, Nat.mul_succ] at h ⊢
    have hr : off + WG_AIP_IO_LEN ≤ b.size := by omega
    obtain ⟨b₁, h₁⟩ := storeNat_isSome aip.family.toNat
      (show off + aAf.offset + aAf.width ≤ b.size by simp only [aAf, WG_AIP_IO_LEN] at hr ⊢; omega)
    have hf₁ := frame_storeNat h₁
    obtain ⟨b₂, h₂⟩ := storeNat_isSome aip.cidr.toNat (show off + aCidr.offset + aCidr.width ≤ b₁.size by
      rw [hf₁.1]; simp only [aCidr, WG_AIP_IO_LEN] at hr ⊢; omega)
    have hf₂ := frame_storeNat h₂
    by_cases hfam : aip.family.toNat = AF_INET ∨ aip.family.toNat = AF_INET6
    · have hlen := length_addr_le aip
      obtain ⟨b₃, h₃⟩ := store_isSome (show off + aIpv4.offset + aip.addr.length ≤ b₂.size by
        rw [hf₂.1, hf₁.1]; simp only [aIpv4, aIpv6, WG_AIP_IO_LEN] at hr hlen ⊢; omega)
      have hf₃ := frame_store h₃
      obtain ⟨b', c, next, hw, hlow, hnext, hf, hv⟩ := ih (count + 1)
        (show off + WG_AIP_IO_LEN + WG_AIP_IO_LEN * aips.length ≤ b₃.size by
          rw [hf₃.1, hf₂.1, hf₁.1]; omega)
      have hfam' : aip.family.toNat < 256 ^ aAf.width := by
        rcases hfam with h | h <;> rw [h] <;> decide
      have hat : AipAt b₃ off aip :=
        ⟨by rw [hf₃.1, hf₂.1, hf₁.1]; exact hr,
          by rw [(hf₂.trans hf₃).loadNat_eq fun i hi hi' => by
                simp only [Field.Covers, aAf, aCidr, aIpv4, aIpv6] at hi hi' hlen; omega,
              loadNat_storeNat_self h₁, Nat.mod_eq_of_lt hfam'],
          by rw [hf₃.loadNat_eq fun i hi hi' => by
                simp only [Field.Covers, aCidr, aIpv4] at hi hi'; omega,
              loadNat_storeNat_self h₂,
              Nat.mod_eq_of_lt (lt_of_lt_of_le aip.cidr.toNat_lt_size (by decide))],
          load_store_self h₃⟩
      refine ⟨b', c, next, by
          rw [writeAips_cons_of_family aips hfam]
          simp only [h₁, h₂, h₃, hw, Option.bind_eq_bind, Option.some_bind],
        by omega, by omega, ((hf₁.trans hf₂).trans (hf₃.trans hf)).mono fun i hi => by
          simp only [Field.Covers, aAf, aCidr, aIpv4, aIpv6, WG_AIP_IO_LEN] at hi hlen ⊢; omega,
        fun hval => ?_⟩
      obtain ⟨hc, hn, hrest⟩ := hv fun a ha => hval a (List.mem_cons_of_mem _ ha)
      exact ⟨by omega, by omega, hat.frame hf fun i _ h₂ hi => by omega, hrest⟩
    · obtain ⟨b', c, next, hw, hlow, hnext, hf, hv⟩ := ih count
        (show off + WG_AIP_IO_LEN * aips.length ≤ b₂.size by rw [hf₂.1, hf₁.1]; omega)
      have hfam' := not_or.1 hfam
      refine ⟨b', c, next, by
          simp only [writeAips, if_neg hfam'.1, if_neg hfam'.2, h₁, h₂, hw, Option.bind_eq_bind,
            Option.some_bind],
        hlow, by omega, ((hf₁.trans hf₂).trans hf).mono fun i hi => by
          simp only [Field.Covers, aAf, aCidr, WG_AIP_IO_LEN] at hi ⊢; omega,
        fun hval => absurd (family_of_valid (hval aip (List.mem_cons_self _ _))) hfam⟩

/-! ### The peers -/

/-- The records the peer loop writes for `peers` from `off`: each header, its
`p_aips_count` and its allowed-ips, the next header where they end. -/
def PeersAt (b : Block) : Nat → List Wgpeer → Prop
  | _, [] => True
  | off, peer :: peers => HeaderAt b off peer ∧
      b.loadNat off pAipsCount = some peer.allowedips.length ∧
      AipsAt b (off + WG_PEER_IO_LEN) peer.allowedips ∧ PeersAt b (off + peerLen peer) peers

theorem PeersAt.frame {b b' : Block} {t : Nat → Prop} (hf : Frame b b' t) {off : Nat}
    {peers : List Wgpeer} (h : PeersAt b off peers)
    (ht : ∀ i, off ≤ i → i < off + (peers.map peerLen).sum → ¬ t i) : PeersAt b' off peers := by
  induction peers generalizing off with
  | nil => trivial
  | cons p peers ih =>
    obtain ⟨hh, hc, ha, hp⟩ := h
    simp only [List.map_cons, List.sum_cons, peerLen] at ht
    refine ⟨hh.frame hf fun i h₁ h₂ => ht i h₁ (by
        simp only [pAipsCount, WG_PEER_IO_LEN] at h₂ ⊢; omega), ?_,
      ha.frame hf fun i h₁ h₂ => ht i (by omega) (by omega),
      ih hp fun i h₁ h₂ => ht i (by simp only [peerLen] at h₁; omega) (by
        simp only [peerLen] at h₁ h₂; omega)⟩
    rw [hf.loadNat_eq fun i hi => ht i (by simp only [Field.Covers] at hi; omega) (by
      simp only [Field.Covers, pAipsCount, WG_PEER_IO_LEN] at hi ⊢; omega), hc]

/-- **The peer loop stays inside the peers' records**: with room for them from `off`, it
stores only there and counts every peer.  When every allowed-ip is valid, the records then
hold what the walk reads. -/
theorem writePeers_spec {b : Block} {off : Nat} (count : Nat) (peers : List Wgpeer)
    (h : off + (peers.map peerLen).sum ≤ b.size) (hsize : b.size < 2 ^ 64) :
    ∃ b' c, writePeers b off count peers = some (b', c) ∧ c = count + peers.length ∧
      Frame b b' (fun i => off ≤ i ∧ i < off + (peers.map peerLen).sum) ∧
      ((∀ p ∈ peers, ∀ a ∈ p.allowedips, a.valid) → PeersAt b' off peers) := by
  induction peers generalizing b off count with
  | nil => exact ⟨b, count, rfl, rfl, Frame.refl _ _, fun _ => trivial⟩
  | cons p peers ih =>
    have hp : off + WG_PEER_IO_LEN + WG_AIP_IO_LEN * p.allowedips.length +
        (peers.map peerLen).sum ≤ b.size := by
      simp only [List.map_cons, List.sum_cons, peerLen] at h; omega
    obtain ⟨b₁, h₁, hf₁, hh₁⟩ := writePeer_spec (show off + WG_PEER_IO_LEN ≤ b.size by omega) p
    obtain ⟨b₂, c, next, h₂, hlow, hnext, hf₂, hv₂⟩ := writeAips_spec 0 p.allowedips
      (show off + WG_PEER_IO_LEN + WG_AIP_IO_LEN * p.allowedips.length ≤ b₁.size by rw [hf₁.1]; omega)
    obtain ⟨b₃, h₃⟩ := storeNat_isSome c (show off + pAipsCount.offset + pAipsCount.width ≤ b₂.size by
      rw [hf₂.1, hf₁.1]; simp only [pAipsCount, WG_PEER_IO_LEN] at hp ⊢; omega)
    have hf₃ := frame_storeNat h₃
    have hs₃ : b₃.size = b.size := by rw [hf₃.1, hf₂.1, hf₁.1]
    obtain ⟨b', c', h', hc', hf', hv'⟩ := ih (count + 1)
      (show next + (peers.map peerLen).sum ≤ b₃.size by rw [hs₃]; omega) (by rw [hs₃]; exact hsize)
    refine ⟨b', c', by simp only [writePeers, h₁, h₂, h₃, h', Option.bind_eq_bind, Option.some_bind],
      by rw [hc', List.length_cons]; omega,
      (((hf₁.trans hf₂).trans hf₃).trans hf').mono fun i hi => by
        simp only [Field.Covers, pAipsCount, List.map_cons, List.sum_cons, peerLen,
          WG_PEER_IO_LEN] at hi hp hlow hnext ⊢; omega,
      fun hval => ?_⟩
    obtain ⟨rfl, rfl, ha₂⟩ := hv₂ (hval p (List.mem_cons_self _ _))
    refine ⟨hh₁.frame ((hf₂.trans hf₃).trans hf') fun i _ h₂ hi => by
        simp only [Field.Covers, pAipsCount, WG_PEER_IO_LEN] at h₂ hi; omega, ?_,
      ha₂.frame (hf₃.trans hf') fun i h₁ h₂ hi => by
        simp only [Field.Covers, pAipsCount, WG_PEER_IO_LEN] at h₁ h₂ hi; omega, ?_⟩
    · rw [hf'.loadNat_eq fun i hi hi' => by
          simp only [Field.Covers, pAipsCount, WG_PEER_IO_LEN] at hi hi'; omega,
        loadNat_storeNat_self h₃, Nat.zero_add,
        Nat.mod_eq_of_lt (show p.allowedips.length < 256 ^ pAipsCount.width by
          simp only [pAipsCount, WG_AIP_IO_LEN] at hp hsize ⊢; omega)]
    · have := hv' fun q hq => hval q (List.mem_cons_of_mem _ hq)
      rwa [show off + WG_PEER_IO_LEN + WG_AIP_IO_LEN * p.allowedips.length = off + peerLen p by
        simp only [peerLen]; omega] at this

/-! ### The whole buffer -/

/-- **`kernel_set_device` stores only inside the buffer it sizes**: into a zeroed buffer of
`flatSize dev` bytes, every store succeeds.  When every allowed-ip is valid, the buffer then
holds what the walk of `kernel_get_device` reads. -/
theorem serialize_spec (dev : Wgdevice) (hsize : flatSize dev < 2 ^ 64) :
    ∃ b, serialize dev (calloc (flatSize dev)) = some b ∧ b.size = flatSize dev ∧
      ((∀ p ∈ dev.peers, ∀ a ∈ p.allowedips, a.valid) →
        InterfaceAt b dev ∧ b.loadNat 0 iPeersCount = some dev.peers.length ∧
        PeersAt b WG_INTERFACE_IO_LEN dev.peers) := by
  have h80 : WG_INTERFACE_IO_LEN ≤ flatSize dev := Nat.le_add_right _ _
  obtain ⟨b₁, h₁, hf₁, hi₁⟩ := writeInterface_spec dev
    (show WG_INTERFACE_IO_LEN ≤ (calloc (flatSize dev)).size from h80)
    (loadNat_calloc (by simp only [iFlags, WG_INTERFACE_IO_LEN] at h80 ⊢; omega))
  obtain ⟨b₂, c, h₂, hc, hf₂, hv₂⟩ := writePeers_spec 0 dev.peers
    (show WG_INTERFACE_IO_LEN + (dev.peers.map peerLen).sum ≤ b₁.size by rw [hf₁.1]; exact le_rfl)
    (by rw [hf₁.1]; exact hsize)
  obtain ⟨b₃, h₃⟩ := storeNat_isSome c
    (show 0 + iPeersCount.offset + iPeersCount.width ≤ b₂.size by
      rw [hf₂.1, hf₁.1]; simp only [iPeersCount, WG_INTERFACE_IO_LEN] at h80 ⊢; exact h80)
  have hf₃ := frame_storeNat h₃
  refine ⟨b₃, by simp only [serialize, h₁, h₂, h₃, Option.bind_eq_bind, Option.some_bind],
    by rw [hf₃.1, hf₂.1, hf₁.1]; rfl, fun hval => ⟨hi₁.frame (hf₂.trans hf₃) fun i hi hi' => by
      simp only [Field.Covers, iPeersCount, WG_INTERFACE_IO_LEN] at hi hi'; omega, ?_,
      (hv₂ hval).frame hf₃ fun i hi _ hi' => by
        simp only [Field.Covers, iPeersCount, WG_INTERFACE_IO_LEN] at hi hi'; omega⟩⟩
  rw [loadNat_storeNat_self h₃, hc, Nat.zero_add, Nat.mod_eq_of_lt (show dev.peers.length < 256 ^ iPeersCount.width by
    have := List.length_le_sum_of_one_le (dev.peers.map peerLen) fun x hx => by
      obtain ⟨p, -, rfl⟩ := List.mem_map.1 hx
      exact le_trans (by decide) (Nat.le_add_right WG_PEER_IO_LEN _)
    rw [List.length_map] at this
    simp only [iPeersCount, flatSize] at hsize ⊢; omega)]

end Openbsd

end WireguardIpc

/-
The flat buffer OpenBSD's `SIOCGWG` and `SIOCSWG` ioctls exchange.

The OpenBSD `kernel_get_device` and `kernel_set_device` hand the kernel one block of
`wgd_size` bytes: a `struct wg_interface_io`, then each peer as a `struct wg_peer_io`
immediately followed by its `struct wg_aip_io` records, the next peer starting where the
previous one's records end.  The structures are declared in OpenBSD's `net/if_wg.h`, which
is not among the sources; the offsets and sizes here are that header's on amd64, and
integers are little-endian.  The endpoint union of `struct wgpeer` is a BSD socket address:
`sa_len` in its first byte, `sa_family` in its second.  The address families keep the
values of `Containers.lean`: only that they are distinct, non-zero and fit `sa_family_t`
matters.

A block is its size and the byte at each offset.  Loads and stores of a run of bytes are
`none` when the run reaches past the block: that is the access the C code would make out of
bounds.  `Block.Frame` records which bytes a run of stores may have changed; every layout
fact of the two directions is read off it.
-/
import WireguardIpc.Containers

namespace WireguardIpc

/-! ### BSD socket addresses -/

/-- `sa_len`, the first byte of the endpoint union read as a BSD socket address. -/
def Endpoint.saLen (e : Endpoint) : Nat := (e.data.getD 0 0).toNat

/-- `sa_family`, its second byte. -/
def Endpoint.saFamily (e : Endpoint) : Nat := (e.data.getD 1 0).toNat

/-- The socket address a BSD endpoint holds: its first `sa_len` bytes, when its family is
one of the two the backends exchange. -/
def Endpoint.sockaddr (e : Endpoint) : Option (List UInt8) :=
  if e.saFamily = AF_INET ∨ e.saFamily = AF_INET6 then some (e.data.take e.saLen) else none

/-- Copying a whole array into one of its size gives it back. -/
theorem Bytes.copyIn_full {n : Nat} (dst src : Bytes n) : dst.copyIn src.data = src :=
  Bytes.eq_of_data (by
    rw [Bytes.copyIn_data _ (by simp), List.drop_eq_nil_of_le (by simp), List.append_nil])

namespace Openbsd

/-! ### Blocks -/

/-- A heap block: its size, and the byte at each offset. -/
structure Block where
  size : Nat
  byte : Nat → UInt8

namespace Block

/-- `calloc(1, size)`. -/
def calloc (size : Nat) : Block := ⟨size, fun _ => 0⟩

/-- The `n` bytes from `off`, whether or not they lie in the block. -/
def read (b : Block) (off n : Nat) : List UInt8 := (List.range n).map fun i => b.byte (off + i)

/-- Reading `n` bytes at `off`: `none` when they reach past the block. -/
def load (b : Block) (off n : Nat) : Option (List UInt8) :=
  if off + n ≤ b.size then some (b.read off n) else none

/-- `memcpy(block + off, src, src.length)`: `none` when it reaches past the block. -/
def store (b : Block) (off : Nat) (src : List UInt8) : Option Block :=
  if off + src.length ≤ b.size then
    some ⟨b.size, fun i => if off ≤ i ∧ i < off + src.length then src.getD (i - off) 0 else b.byte i⟩
  else none

/-- `b'` is `b` with at most the bytes at the offsets in `touched` changed. -/
def Frame (b b' : Block) (touched : Nat → Prop) : Prop :=
  b'.size = b.size ∧ ∀ i, ¬ touched i → b'.byte i = b.byte i

@[simp] theorem length_read (b : Block) (off n : Nat) : (b.read off n).length = n := by
  simp [read]

theorem load_of_le {b : Block} {off n : Nat} (h : off + n ≤ b.size) :
    b.load off n = some (b.read off n) := if_pos h

theorem load_eq_none_iff {b : Block} {off n : Nat} : b.load off n = none ↔ b.size < off + n := by
  unfold load
  split_ifs <;> simp <;> omega

theorem le_of_load_eq_some {b : Block} {off n : Nat} {l : List UInt8} (h : b.load off n = some l) :
    off + n ≤ b.size :=
  Nat.not_lt.1 fun hlt => by rw [load_eq_none_iff.2 hlt] at h; cases h

theorem read_congr {b b' : Block} {off n : Nat}
    (h : ∀ i, off ≤ i → i < off + n → b'.byte i = b.byte i) : b'.read off n = b.read off n :=
  List.map_congr_left fun i hi => h _ (Nat.le_add_right _ _) (by simp at hi; omega)

/-- A prefix of a load is a load. -/
theorem load_take {b : Block} {off n m : Nat} {l : List UInt8} (h : b.load off n = some l)
    (hm : m ≤ n) : b.load off m = some (l.take m) := by
  have hle := le_of_load_eq_some h
  rw [load_of_le hle] at h
  rw [load_of_le (by omega), ← Option.some.inj h, read, read, ← List.map_take, List.take_range,
    Nat.min_eq_left hm]

theorem store_isSome {b : Block} {off : Nat} {src : List UInt8} (h : off + src.length ≤ b.size) :
    ∃ b', b.store off src = some b' := ⟨_, if_pos h⟩

theorem frame_store {b b' : Block} {off : Nat} {src : List UInt8} (h : b.store off src = some b') :
    Frame b b' fun i => off ≤ i ∧ i < off + src.length := by
  unfold store at h
  split_ifs at h
  cases h
  exact ⟨rfl, fun i hi => if_neg hi⟩

theorem load_store_self {b b' : Block} {off : Nat} {src : List UInt8}
    (h : b.store off src = some b') : b'.load off src.length = some src := by
  unfold store at h
  split_ifs at h with hle
  cases h
  simp only [load, if_pos hle]
  refine congrArg some (List.ext_getElem (by simp) fun i h₁ h₂ => ?_)
  simp only [read, List.getElem_map, List.getElem_range]
  rw [if_pos (by simp at h₁; omega), Nat.add_sub_cancel_left, List.getD_eq_getElem]

theorem Frame.refl (b : Block) (touched : Nat → Prop) : Frame b b touched :=
  ⟨rfl, fun _ _ => rfl⟩

theorem Frame.trans {b b₁ b₂ : Block} {t₁ t₂ : Nat → Prop} (h₁ : Frame b b₁ t₁)
    (h₂ : Frame b₁ b₂ t₂) : Frame b b₂ fun i => t₁ i ∨ t₂ i :=
  ⟨h₂.1.trans h₁.1, fun i hi => (h₂.2 i fun h => hi (.inr h)).trans (h₁.2 i fun h => hi (.inl h))⟩

theorem Frame.mono {b b' : Block} {t t' : Nat → Prop} (h : Frame b b' t) (ht : ∀ i, t i → t' i) :
    Frame b b' t' :=
  ⟨h.1, fun i hi => h.2 i fun h => hi (ht i h)⟩

/-- **Loads outside the touched bytes see the old block.** -/
theorem Frame.load_eq {b b' : Block} {t : Nat → Prop} (h : Frame b b' t) {off n : Nat}
    (hd : ∀ i, off ≤ i → i < off + n → ¬ t i) : b'.load off n = b.load off n := by
  unfold load
  rw [h.1, read_congr fun i h₁ h₂ => h.2 i (hd i h₁ h₂)]

theorem load_calloc {size off n : Nat} (h : off + n ≤ size) :
    (calloc size).load off n = some (List.replicate n 0) := by
  rw [load_of_le h]
  simp [read, calloc]

end Block

/-! ### Integer fields -/

/-- A field of a C structure: its offset in the structure, and its width in bytes. -/
structure Field where
  offset : Nat
  width : Nat

/-- The byte at `i` belongs to field `f` of the structure at `base`. -/
def Field.Covers (f : Field) (base i : Nat) : Prop :=
  base + f.offset ≤ i ∧ i < base + f.offset + f.width

namespace Block

/-- Reading the integer field `f` of the structure at `base`. -/
def loadNat (b : Block) (base : Nat) (f : Field) : Option Nat :=
  (b.load (base + f.offset) f.width).map ofLeBytes

/-- Assigning `v` to the integer field `f` of the structure at `base`, truncated to its
width as the C assignment truncates it. -/
def storeNat (b : Block) (base : Nat) (f : Field) (v : Nat) : Option Block :=
  b.store (base + f.offset) (leBytes f.width v)

/-- `field |= bit`. -/
def orNat (b : Block) (base : Nat) (f : Field) (bit : Nat) : Option Block := do
  let v ← b.loadNat base f
  b.storeNat base f (v ||| bit)

theorem loadNat_of_le {b : Block} {base : Nat} {f : Field} (h : base + f.offset + f.width ≤ b.size) :
    b.loadNat base f = some (ofLeBytes (b.read (base + f.offset) f.width)) := by
  rw [loadNat, load_of_le h, Option.map_some']

/-- A field of a structure that lies inside the block is read. -/
theorem loadNat_of_inside {b : Block} {base len : Nat} (h : base + len ≤ b.size) (f : Field)
    (hf : f.offset + f.width ≤ len) :
    b.loadNat base f = some (ofLeBytes (b.read (base + f.offset) f.width)) :=
  loadNat_of_le (by omega)

theorem loadNat_eq_none_iff {b : Block} {base : Nat} {f : Field} :
    b.loadNat base f = none ↔ b.size < base + f.offset + f.width := by
  rw [loadNat, Option.map_eq_none', load_eq_none_iff]

theorem storeNat_isSome {b : Block} {base : Nat} {f : Field} (v : Nat)
    (h : base + f.offset + f.width ≤ b.size) : ∃ b', b.storeNat base f v = some b' :=
  store_isSome (by rwa [length_leBytes])

theorem frame_storeNat {b b' : Block} {base : Nat} {f : Field} {v : Nat}
    (h : b.storeNat base f v = some b') : Frame b b' (f.Covers base) := by
  have := frame_store h
  rwa [length_leBytes] at this

theorem loadNat_storeNat_self {b b' : Block} {base : Nat} {f : Field} {v : Nat}
    (h : b.storeNat base f v = some b') : b'.loadNat base f = some (v % 256 ^ f.width) := by
  have := load_store_self h
  rw [length_leBytes] at this
  rw [loadNat, this, Option.map_some', ofLeBytes_leBytes]

/-- An integer field holding the bytes of `v` reads as `v`, when `v` fits it. -/
theorem loadNat_of_load_leBytes {b : Block} {base : Nat} {f : Field} {v : Nat}
    (h : b.load (base + f.offset) (leBytes f.width v).length = some (leBytes f.width v))
    (hv : v < 256 ^ f.width) : b.loadNat base f = some v := by
  rw [length_leBytes] at h
  rw [loadNat, h, Option.map_some', ofLeBytes_leBytes, Nat.mod_eq_of_lt hv]

theorem Frame.loadNat_eq {b b' : Block} {t : Nat → Prop} (h : Frame b b' t) {base : Nat}
    {f : Field} (hd : ∀ i, f.Covers base i → ¬ t i) : b'.loadNat base f = b.loadNat base f := by
  rw [loadNat, loadNat, h.load_eq fun i h₁ h₂ => hd i ⟨h₁, h₂⟩]

/-- **`|=`**: with the field in the block, it holds the old value with `bit` set, and
nothing else changes. -/
theorem orNat_spec {b : Block} {base : Nat} {f : Field} {w : Nat} (hw : b.loadNat base f = some w)
    (bit : Nat) : ∃ b', b.orNat base f bit = some b' ∧
      b'.loadNat base f = some ((w ||| bit) % 256 ^ f.width) ∧ Frame b b' (f.Covers base) := by
  have hle : base + f.offset + f.width ≤ b.size :=
    Nat.not_lt.1 fun h => by rw [loadNat_eq_none_iff.2 h] at hw; cases hw
  obtain ⟨b', hb'⟩ := storeNat_isSome (w ||| bit) hle
  refine ⟨b', ?_, loadNat_storeNat_self hb', frame_storeNat hb'⟩
  rw [orNat, hw]
  exact hb'

theorem ofLeBytes_replicate_zero (n : Nat) : ofLeBytes (List.replicate n 0) = 0 := by
  induction n <;> simp_all [ofLeBytes, List.replicate_succ]

/-- A field whose bytes are all zero reads as zero. -/
theorem loadNat_of_zero {b : Block} {base : Nat} {f : Field} (h : base + f.offset + f.width ≤ b.size)
    (hz : ∀ i, f.Covers base i → b.byte i = 0) : b.loadNat base f = some 0 := by
  have hr : b.read (base + f.offset) f.width = List.replicate f.width 0 := by
    refine List.eq_replicate_iff.2 ⟨length_read _ _ _, fun x hx => ?_⟩
    obtain ⟨i, hi, rfl⟩ := List.mem_map.1 hx
    exact hz _ ⟨Nat.le_add_right _ _, by simp at hi; omega⟩
  rw [loadNat_of_le h, hr, ofLeBytes_replicate_zero]

theorem loadNat_calloc {size base : Nat} {f : Field} (h : base + f.offset + f.width ≤ size) :
    (calloc size).loadNat base f = some 0 :=
  loadNat_of_zero h fun _ _ => rfl

end Block

/-! ### Flag words -/

/-- `flags & bit`, as a condition. -/
def hasFlag (flags bit : Nat) : Bool := flags &&& bit != 0

@[simp] theorem hasFlag_zero (bit : Nat) : hasFlag 0 bit = false := by simp [hasFlag]

/-! ### `net/if_wg.h` -/

/-- `sizeof(struct wg_interface_io)`, the offset of `i_peers`. -/
def WG_INTERFACE_IO_LEN : Nat := 80
/-- `sizeof(struct wg_peer_io)`, the offset of `p_aips`. -/
def WG_PEER_IO_LEN : Nat := 144
/-- `sizeof(struct wg_aip_io)`. -/
def WG_AIP_IO_LEN : Nat := 24

/-- `uint8_t i_flags`. -/
def iFlags : Field := ⟨0, 1⟩
/-- `in_port_t i_port`. -/
def iPort : Field := ⟨2, 2⟩
/-- `int i_rtable`. -/
def iRtable : Field := ⟨4, 4⟩
/-- `uint8_t i_public[WG_KEY_LEN]`. -/
def iPublic : Field := ⟨8, 32⟩
/-- `uint8_t i_private[WG_KEY_LEN]`. -/
def iPrivate : Field := ⟨40, 32⟩
/-- `size_t i_peers_count`. -/
def iPeersCount : Field := ⟨72, 8⟩

/-- `int p_flags`. -/
def pFlags : Field := ⟨0, 4⟩
/-- `uint8_t p_public[WG_KEY_LEN]`. -/
def pPublic : Field := ⟨8, 32⟩
/-- `uint8_t p_psk[WG_KEY_LEN]`. -/
def pPsk : Field := ⟨40, 32⟩
/-- `uint16_t p_pka`. -/
def pPka : Field := ⟨72, 2⟩
/-- `union wg_peer_endpoint p_endpoint`, the size of a `struct sockaddr_in6`. -/
def pEndpoint : Field := ⟨76, 28⟩
/-- `p_sa.sa_len`, the first byte of `p_endpoint`. -/
def pSaLen : Field := ⟨76, 1⟩
/-- `uint64_t p_txbytes`. -/
def pTxbytes : Field := ⟨104, 8⟩
/-- `uint64_t p_rxbytes`. -/
def pRxbytes : Field := ⟨112, 8⟩
/-- `p_last_handshake.tv_sec`. -/
def pLastHandshakeSec : Field := ⟨120, 8⟩
/-- `p_last_handshake.tv_nsec`. -/
def pLastHandshakeNsec : Field := ⟨128, 8⟩
/-- `size_t p_aips_count`. -/
def pAipsCount : Field := ⟨136, 8⟩

/-- `sa_family_t a_af`. -/
def aAf : Field := ⟨0, 1⟩
/-- `int a_cidr`. -/
def aCidr : Field := ⟨4, 4⟩
/-- `struct in_addr a_ipv4`. -/
def aIpv4 : Field := ⟨8, 4⟩
/-- `struct in6_addr a_ipv6`. -/
def aIpv6 : Field := ⟨8, 16⟩

/-- `WG_INTERFACE_HAS_PUBLIC`. -/
def WG_INTERFACE_HAS_PUBLIC : Nat := 1
/-- `WG_INTERFACE_HAS_PRIVATE`. -/
def WG_INTERFACE_HAS_PRIVATE : Nat := 2
/-- `WG_INTERFACE_HAS_PORT`. -/
def WG_INTERFACE_HAS_PORT : Nat := 4
/-- `WG_INTERFACE_HAS_RTABLE`. -/
def WG_INTERFACE_HAS_RTABLE : Nat := 8
/-- `WG_INTERFACE_REPLACE_PEERS`. -/
def WG_INTERFACE_REPLACE_PEERS : Nat := 16

/-- `WG_PEER_HAS_PUBLIC`. -/
def WG_PEER_HAS_PUBLIC : Nat := 1
/-- `WG_PEER_HAS_PSK`. -/
def WG_PEER_HAS_PSK : Nat := 2
/-- `WG_PEER_HAS_PKA`. -/
def WG_PEER_HAS_PKA : Nat := 4
/-- `WG_PEER_HAS_ENDPOINT`. -/
def WG_PEER_HAS_ENDPOINT : Nat := 8
/-- `WG_PEER_REPLACE_AIPS`. -/
def WG_PEER_REPLACE_AIPS : Nat := 16
/-- `WG_PEER_REMOVE`. -/
def WG_PEER_REMOVE : Nat := 32

end Openbsd

end WireguardIpc

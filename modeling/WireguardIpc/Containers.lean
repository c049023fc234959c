/-
The records every backend of `ipc.c` reads and writes.

`containers.h` is not among the sources, so the records are rebuilt from the way
`ipc.c` uses them and from the data model of the specification.  The C structures
hold their lists as `next` chains with a `last` pointer for appending; here a chain is
a `List`, in chain order, and a `last` pointer is the index of the node it points to in
its own chain (`none` is `NULL`).  That is exactly what is needed to state, and to
break, the invariant `coalesce_peers` relies on: that `last_allowedip` points to the
last node of its chain.

Fixed-size byte arrays carry their size as a field, so a key is always 32 bytes and
the endpoint union always 28; fields of a fixed C width are `UInt8` to `UInt64`, so
that a store into `uint8_t cidr` truncates as the C store does.  The `flags` words are
records of booleans, one per enumerator, as the specification asks.
-/
import Mathlib

namespace WireguardIpc

/-! ### Constants of the system headers -/

/-- `IFNAMSIZ`. -/
def IFNAMSIZ : Nat := 16
/-- `WG_KEY_LEN`. -/
def WG_KEY_LEN : Nat := 32
/-- `AF_UNSPEC`. -/
def AF_UNSPEC : Nat := 0
/-- `AF_INET`. -/
def AF_INET : Nat := 2
/-- `AF_INET6` (Linux's value; only its being distinct from the others matters). -/
def AF_INET6 : Nat := 10
/-- `sizeof(struct sockaddr)`. -/
def SOCKADDR_LEN : Nat := 16
/-- `sizeof(struct sockaddr_in)`. -/
def SOCKADDR_IN_LEN : Nat := 16
/-- `sizeof(struct sockaddr_in6)`, also the size of the endpoint union. -/
def SOCKADDR_IN6_LEN : Nat := 28

/-- `ENOENT`. -/
def ENOENT : Nat := 2
/-- `EINTR`. -/
def EINTR : Nat := 4
/-- `EBADF`. -/
def EBADF : Nat := 9
/-- `ENOMEM`. -/
def ENOMEM : Nat := 12
/-- `EINVAL`. -/
def EINVAL : Nat := 22
/-- `ERANGE`. -/
def ERANGE : Nat := 34
/-- `EPROTO`. -/
def EPROTO : Nat := 71
/-- `ENETUNREACH`. -/
def ENETUNREACH : Nat := 101
/-- `ECONNREFUSED`. -/
def ECONNREFUSED : Nat := 111

/-! ### Byte arrays -/

/-- A C array `uint8_t [n]`. -/
structure Bytes (n : Nat) where
  data : List UInt8
  size : data.length = n
deriving DecidableEq, Repr

namespace Bytes

@[simp] theorem length_data {n : Nat} (b : Bytes n) : b.data.length = n := b.size

/-- The array `calloc` hands out. -/
def zero (n : Nat) : Bytes n := ⟨List.replicate n 0, List.length_replicate n 0⟩

/-- `memcpy(dst, src, src_len)` into the front of the array; bytes past `src` are kept. -/
def copyIn {n : Nat} (dst : Bytes n) (src : List UInt8) : Bytes n :=
  ⟨(src ++ dst.data.drop src.length).take n, by simp [dst.size]; omega⟩

theorem copyIn_data {n : Nat} (dst : Bytes n) {src : List UInt8} (h : src.length ≤ n) :
    (dst.copyIn src).data = src ++ dst.data.drop src.length := by
  simp only [copyIn]
  rw [List.take_of_length_le]
  simp [dst.size]; omega

/-- `key_is_zero`. -/
def isZero {n : Nat} (b : Bytes n) : Bool := b.data.all (· == 0)

/-- An array of the right size built from a payload of that size. -/
def ofList {n : Nat} (l : List UInt8) (h : l.length = n) : Bytes n := ⟨l, h⟩

@[simp] theorem ofList_data {n : Nat} (l : List UInt8) (h : l.length = n) :
    (ofList l h).data = l := rfl

@[simp] theorem ofList_self {n : Nat} (b : Bytes n) (h : b.data.length = n) : ofList b.data h = b :=
  rfl

theorem eq_of_data {n : Nat} {a b : Bytes n} (h : a.data = b.data) : a = b := by
  cases a; cases b; cases h; rfl

end Bytes

/-- A key, `uint8_t [WG_KEY_LEN]`. -/
abbrev Key := Bytes WG_KEY_LEN

/-- A key whose first byte is `b`, the others zero. -/
def Key.ofByte (b : UInt8) : Key := ⟨b :: List.replicate 31 0, rfl⟩

/-! ### Little-endian integers

Netlink payloads carry integers in host order; the model fixes little endian.  One
encoding serves every width.
-/

theorem UInt8.ofNat_toNat (v : UInt8) : UInt8.ofNat v.toNat = v :=
  UInt8.toNat.inj (UInt8.toNat_ofNat_of_lt v.toNat_lt_size)
theorem UInt16.ofNat_toNat (v : UInt16) : UInt16.ofNat v.toNat = v :=
  UInt16.toNat.inj (UInt16.toNat_ofNat_of_lt v.toNat_lt_size)
theorem UInt32.ofNat_toNat (v : UInt32) : UInt32.ofNat v.toNat = v :=
  UInt32.toNat.inj (UInt32.toNat_ofNat_of_lt v.toNat_lt_size)

/-- The `k` low bytes of `n`, least significant first. -/
def leBytes : Nat → Nat → List UInt8
  | 0, _ => []
  | k + 1, n => UInt8.ofNat n :: leBytes k (n / 256)

/-- The number a run of little-endian bytes denotes. -/
def ofLeBytes (l : List UInt8) : Nat := l.foldr (fun b acc => b.toNat + 256 * acc) 0

@[simp] theorem length_leBytes (k n : Nat) : (leBytes k n).length = k := by
  induction k generalizing n <;> simp [leBytes, *]

theorem UInt8.toNat_ofNat_mod (n : Nat) : (UInt8.ofNat n).toNat = n % 256 := by
  simp [UInt8.ofNat, UInt8.toNat, BitVec.toNat_ofNat]

theorem ofLeBytes_leBytes (k n : Nat) : ofLeBytes (leBytes k n) = n % 256 ^ k := by
  induction k generalizing n with
  | zero => simp [leBytes, ofLeBytes, Nat.mod_one]
  | succ k ih =>
    have ih' := ih (n / 256)
    simp only [ofLeBytes, leBytes, List.foldr_cons] at ih' ⊢
    rw [ih', UInt8.toNat_ofNat_mod, Nat.pow_succ', Nat.mod_mul]

/-! ### Interface names -/

/-- `char name[IFNAMSIZ]`: at most `IFNAMSIZ - 1` bytes, none of them NUL. -/
structure IfName where
  chars : List UInt8
  short : chars.length ≤ IFNAMSIZ - 1
  noNul : 0 ∉ chars
deriving DecidableEq, Repr

/-- `strncpy(name, s, IFNAMSIZ - 1); name[IFNAMSIZ - 1] = '\0'` from a C string `s`. -/
def IfName.ofCString (s : List UInt8) : IfName :=
  ⟨(s.takeWhile (· != 0)).take (IFNAMSIZ - 1), List.length_take_le _ _,
    fun h => by simpa using List.mem_takeWhile_imp (List.mem_of_mem_take h)⟩

/-- A name read back from the C string it is sent as. -/
theorem IfName.ofCString_chars (n : IfName) : IfName.ofCString (n.chars ++ [0]) = n := by
  obtain ⟨chars, short, noNul⟩ := n
  have h : (chars ++ [0]).takeWhile (· != 0) = chars := by
    rw [List.takeWhile_append_of_pos (fun a ha => by
      simpa using fun h : a = 0 => noNul (h ▸ ha))]
    simp
  simp only [ofCString, h, List.take_of_length_le short]

/-- The empty name of a `calloc`ed device. -/
def IfName.empty : IfName := ⟨[], by simp, by simp⟩

/-! ### The records -/

/-- The `flags` word of `struct wgdevice`, one field per enumerator. -/
structure WgdeviceFlags where
  replacePeers : Bool := false
  hasPrivateKey : Bool := false
  hasPublicKey : Bool := false
  hasListenPort : Bool := false
  hasFwmark : Bool := false
deriving DecidableEq, Repr

/-- The `flags` word of `struct wgpeer`. -/
structure WgpeerFlags where
  removeMe : Bool := false
  replaceAllowedips : Bool := false
  hasPublicKey : Bool := false
  hasPresharedKey : Bool := false
  hasPersistentKeepaliveInterval : Bool := false
deriving DecidableEq, Repr

/-- `struct wgallowedip`, its `next_allowedip` link being the chain it sits in. -/
structure Wgallowedip where
  family : UInt16
  /-- The `ip4`/`ip6` union: `ip4` is its first four bytes. -/
  ip : Bytes 16
  cidr : UInt8
deriving DecidableEq, Repr

/-- `struct timespec64`: the two words as stored. -/
structure Timespec where
  tvSec : UInt64
  tvNsec : UInt64
deriving DecidableEq, Repr

/-- The `endpoint` union of `struct wgpeer` (`sockaddr`, `sockaddr_in`, `sockaddr_in6`). -/
abbrev Endpoint := Bytes SOCKADDR_IN6_LEN

/-- `struct wgpeer`. -/
structure Wgpeer where
  flags : WgpeerFlags
  publicKey : Key
  presharedKey : Key
  endpoint : Endpoint
  lastHandshakeTime : Timespec
  rxBytes : UInt64
  txBytes : UInt64
  persistentKeepaliveInterval : UInt16
  /-- The chain from `first_allowedip`. -/
  allowedips : List Wgallowedip
  /-- `last_allowedip`, as the index of the node it points to. -/
  lastAllowedip : Option Nat
deriving DecidableEq, Repr

/-- `struct wgdevice`. -/
structure Wgdevice where
  name : IfName
  ifindex : UInt32
  flags : WgdeviceFlags
  publicKey : Key
  privateKey : Key
  fwmark : UInt32
  listenPort : UInt16
  /-- The chain from `first_peer`. -/
  peers : List Wgpeer
  /-- `last_peer`, as the index of the node it points to. -/
  lastPeer : Option Nat
deriving DecidableEq, Repr

/-- Where a correct `last` pointer of a chain points: its last node, `NULL` when empty. -/
def lastIndex {α : Type} : List α → Option Nat
  | [] => none
  | _ :: t => some t.length

@[simp] theorem lastIndex_nil {α : Type} : lastIndex ([] : List α) = none := rfl
@[simp] theorem lastIndex_cons {α : Type} (a : α) (t : List α) : lastIndex (a :: t) = some t.length := rfl

/-- A new node linked at the end of a chain through a correct `last` pointer lands there. -/
theorem lastIndex_concat {α : Type} (l : List α) (a : α) : lastIndex (l ++ [a]) = some l.length := by
  cases l <;> simp

/-- A `calloc`ed `struct wgallowedip`. -/
def Wgallowedip.zero : Wgallowedip := ⟨0, Bytes.zero 16, 0⟩

/-- A `calloc`ed `struct wgpeer`. -/
def Wgpeer.zero : Wgpeer :=
  ⟨{}, Bytes.zero _, Bytes.zero _, Bytes.zero _, ⟨0, 0⟩, 0, 0, 0, [], none⟩

/-- A `calloc`ed `struct wgdevice`. -/
def Wgdevice.zero : Wgdevice :=
  ⟨IfName.empty, 0, {}, Bytes.zero _, Bytes.zero _, 0, 0, [], none⟩

/-- `peer->endpoint.addr.sa_family`, the first two bytes of the union in host order. -/
def Endpoint.family (e : Endpoint) : Nat := ofLeBytes (e.data.take 2)

/-! ### The process

Allocation can fail anywhere, and the code's results then depend on `errno`.  Both are
inputs of the model: the outcomes of the `calloc` calls, in call order, and `errno` as the
last call left it.
-/

/-- Whether each `calloc` succeeds, in call order (all succeed once the list is used up),
and the current `errno`. -/
structure Sys where
  allocs : List Bool
  errno : Nat
deriving DecidableEq, Repr

/-- `calloc`: the next outcome; a failure sets `errno` to `ENOMEM`. -/
def Sys.calloc (s : Sys) : Bool × Sys :=
  match s.allocs with
  | [] => (true, s)
  | ok :: rest => (ok, { allocs := rest, errno := if ok then s.errno else ENOMEM })

theorem Sys.calloc_errno {s s' : Sys} (h : s.calloc = (false, s')) : s'.errno = ENOMEM := by
  unfold Sys.calloc at h
  split at h
  · cases h
  · obtain ⟨rfl, rfl⟩ := Prod.mk.inj h; rfl

/-! ### What a backend is asked to keep

The specification's notion of "the same" endpoint and allowed-ip: an endpoint is its
socket address when its family is one of the two the backends accept, and absent
otherwise; an allowed-ip is its family, the address bytes of that family, and its prefix
length.
-/

/-- The socket address an endpoint holds, if its family is `AF_INET` or `AF_INET6`. -/
def Endpoint.addr (e : Endpoint) : Option (List UInt8) :=
  if e.family = AF_INET then some (e.data.take SOCKADDR_IN_LEN)
  else if e.family = AF_INET6 then some e.data
  else none

/-- The address bytes an allowed-ip of a valid family holds. -/
def Wgallowedip.addr (a : Wgallowedip) : List UInt8 :=
  if a.family.toNat = AF_INET then a.ip.data.take 4 else a.ip.data

/-- `(family == AF_INET && cidr <= 32) || (family == AF_INET6 && cidr <= 128)`. -/
def Wgallowedip.valid (a : Wgallowedip) : Bool :=
  (a.family.toNat == AF_INET && a.cidr.toNat ≤ 32) || (a.family.toNat == AF_INET6 && a.cidr.toNat ≤ 128)

/-- Two allowed-ips a backend cannot tell apart: same family, address and prefix. -/
def Wgallowedip.same (a b : Wgallowedip) : Prop :=
  a.family = b.family ∧ a.addr = b.addr ∧ a.cidr = b.cidr

/-- The allowed-ip a backend rebuilds from what it is sent of `a`: its family, its address
bytes copied into a zeroed union, and its prefix length. -/
def Wgallowedip.decoded (a : Wgallowedip) : Wgallowedip :=
  ⟨a.family, (Bytes.zero 16).copyIn a.addr, a.cidr⟩

theorem Wgallowedip.same_decoded (a : Wgallowedip) : a.same a.decoded := by
  refine ⟨rfl, ?_, rfl⟩
  unfold Wgallowedip.decoded Wgallowedip.addr
  split_ifs
  · rw [Bytes.copyIn_data _ (by simp)]
    exact (List.take_left' (by simp)).symm
  · rw [Bytes.copyIn_data _ (by simp)]
    simp [Bytes.zero]

theorem Wgallowedip.valid_decoded (a : Wgallowedip) : a.decoded.valid = a.valid := rfl

/-- Copying the address an endpoint holds into a zeroed endpoint gives the address back. -/
theorem Endpoint.addr_copyIn (e : Endpoint) :
    Endpoint.addr ((e.addr.map (Bytes.zero SOCKADDR_IN6_LEN).copyIn).getD (Bytes.zero _)) =
      e.addr := by
  by_cases h4 : e.family = AF_INET
  · have ha : e.addr = some (e.data.take SOCKADDR_IN_LEN) := if_pos h4
    have hd : ((Bytes.zero SOCKADDR_IN6_LEN).copyIn (e.data.take SOCKADDR_IN_LEN)).data =
        e.data.take SOCKADDR_IN_LEN ++ List.replicate 12 0 := by
      rw [Bytes.copyIn_data _ (by simp [SOCKADDR_IN_LEN, SOCKADDR_IN6_LEN])]
      simp [Bytes.zero, SOCKADDR_IN_LEN, SOCKADDR_IN6_LEN]
    have hlen : (e.data.take SOCKADDR_IN_LEN).length = SOCKADDR_IN_LEN := by
      simp [SOCKADDR_IN_LEN, SOCKADDR_IN6_LEN]
    have hf : Endpoint.family ((Bytes.zero _).copyIn (e.data.take SOCKADDR_IN_LEN)) = e.family := by
      rw [Endpoint.family, Endpoint.family, hd, List.take_append_of_le_length (by rw [hlen]; decide),
        List.take_take]
      rfl
    rw [ha, Option.map_some', Option.getD_some, Endpoint.addr, if_pos (hf.trans h4), hd,
      List.take_left' hlen]
  · by_cases h6 : e.family = AF_INET6
    · have ha : e.addr = some e.data := by rw [Endpoint.addr, if_neg h4, if_pos h6]
      have he : (Bytes.zero SOCKADDR_IN6_LEN).copyIn e.data = e :=
        Bytes.eq_of_data (by rw [Bytes.copyIn_data _ (by simp)]; simp [Bytes.zero])
      rw [ha, Option.map_some', Option.getD_some, he, ha]
    · have ha : e.addr = none := by rw [Endpoint.addr, if_neg h4, if_neg h6]
      rw [ha]
      decide

/-- A peer read back as the peer `p` that was written: the same public key, the preshared key
where it is flagged and non-zero, the same endpoint address, the keepalive interval where
flagged, and the same allowed-ips in order. -/
structure SamePeer (p q : Wgpeer) : Prop where
  publicKey : q.publicKey = p.publicKey
  presharedKey : p.flags.hasPresharedKey → p.presharedKey.isZero = false →
    q.flags.hasPresharedKey ∧ q.presharedKey = p.presharedKey
  endpoint : q.endpoint.addr = p.endpoint.addr
  keepalive : p.flags.hasPersistentKeepaliveInterval →
    q.persistentKeepaliveInterval = p.persistentKeepaliveInterval
  allowedips : List.Forall₂ Wgallowedip.same p.allowedips q.allowedips

/-- A device read back as the device `dev` that was written: its name, the flagged device
fields, and its peers in order. -/
structure SameDevice (dev d : Wgdevice) : Prop where
  name : d.name = dev.name
  privateKey : dev.flags.hasPrivateKey → d.privateKey = dev.privateKey
  listenPort : dev.flags.hasListenPort → d.listenPort = dev.listenPort
  fwmark : dev.flags.hasFwmark → d.fwmark = dev.fwmark
  peers : List.Forall₂ SamePeer dev.peers d.peers

end WireguardIpc

/-
Netlink attributes as libmnl builds and walks them.

`ipc.c` talks to the kernel through the small libmnl layer of `netlink.h`, which is not
among the sources.  What the code relies on is modelled here from libmnl's documented
behaviour: an attribute is a header of `MNL_ATTR_HDRLEN` bytes and a payload padded to
`MNL_ALIGN`, a nest is an attribute whose payload is a run of attributes, and
`mnl_attr_parse` hands the attributes of a run to a callback in order, stopping at the
first result that is not `MNL_CB_OK`.

A message is a tree of attributes.  The builder side needs only the byte size of each
attribute, which is what the `_check` variants compare against the buffer.  The decoder
side has to accept any tree, including a plain attribute where it expects a nest, or a
nest where it expects a fixed-size value; libmnl reads the bytes in both cases, so a nest
has a byte image (`listBytes`) and a plain payload can be read as a run of attributes
(`parseAttrs`).  The 16-bit length field of the wire format is not modelled: the tree is
what libmnl recovers from a message it accepts.

Every callback runs in `Option`: `none` is a `NULL` dereference in the C code.
-/
import WireguardIpc.Containers

namespace WireguardIpc

/-! ### Sizes -/

/-- `MNL_ATTR_HDRLEN`. -/
def MNL_ATTR_HDRLEN : Nat := 4
/-- `MNL_NLMSG_HDRLEN`, the `nlmsghdr` `mnlg_msg_prepare` starts a message with. -/
def MNL_NLMSG_HDRLEN : Nat := 16
/-- `sizeof(struct genlmsghdr)`. -/
def GENL_HDRLEN : Nat := 4
/-- `NLA_F_NESTED`, the bit `mnl_attr_nest_start` sets in a nest's type. -/
def NLA_F_NESTED : Nat := 0x8000

/-- `MNL_ALIGN`: round up to a multiple of four. -/
def mnlAlign (n : Nat) : Nat := (n + 3) / 4 * 4

theorem le_mnlAlign (n : Nat) : n ≤ mnlAlign n := by unfold mnlAlign; omega

/-! ### `linux/wireguard.h`

The attribute numbers of the generic netlink family.  Only their being distinct matters
to the code; the values are the kernel's.
-/

/-- `WGDEVICE_A_IFINDEX`. -/
def WGDEVICE_A_IFINDEX : Nat := 1
/-- `WGDEVICE_A_IFNAME`. -/
def WGDEVICE_A_IFNAME : Nat := 2
/-- `WGDEVICE_A_PRIVATE_KEY`. -/
def WGDEVICE_A_PRIVATE_KEY : Nat := 3
/-- `WGDEVICE_A_PUBLIC_KEY`. -/
def WGDEVICE_A_PUBLIC_KEY : Nat := 4
/-- `WGDEVICE_A_FLAGS`. -/
def WGDEVICE_A_FLAGS : Nat := 5
/-- `WGDEVICE_A_LISTEN_PORT`. -/
def WGDEVICE_A_LISTEN_PORT : Nat := 6
/-- `WGDEVICE_A_FWMARK`. -/
def WGDEVICE_A_FWMARK : Nat := 7
/-- `WGDEVICE_A_PEERS`. -/
def WGDEVICE_A_PEERS : Nat := 8
/-- `WGPEER_A_PUBLIC_KEY`. -/
def WGPEER_A_PUBLIC_KEY : Nat := 1
/-- `WGPEER_A_PRESHARED_KEY`. -/
def WGPEER_A_PRESHARED_KEY : Nat := 2
/-- `WGPEER_A_FLAGS`. -/
def WGPEER_A_FLAGS : Nat := 3
/-- `WGPEER_A_ENDPOINT`. -/
def WGPEER_A_ENDPOINT : Nat := 4
/-- `WGPEER_A_PERSISTENT_KEEPALIVE_INTERVAL`. -/
def WGPEER_A_PERSISTENT_KEEPALIVE_INTERVAL : Nat := 5
/-- `WGPEER_A_LAST_HANDSHAKE_TIME`. -/
def WGPEER_A_LAST_HANDSHAKE_TIME : Nat := 6
/-- `WGPEER_A_RX_BYTES`. -/
def WGPEER_A_RX_BYTES : Nat := 7
/-- `WGPEER_A_TX_BYTES`. -/
def WGPEER_A_TX_BYTES : Nat := 8
/-- `WGPEER_A_ALLOWEDIPS`. -/
def WGPEER_A_ALLOWEDIPS : Nat := 9
/-- `WGALLOWEDIP_A_FAMILY`. -/
def WGALLOWEDIP_A_FAMILY : Nat := 1
/-- `WGALLOWEDIP_A_IPADDR`. -/
def WGALLOWEDIP_A_IPADDR : Nat := 2
/-- `WGALLOWEDIP_A_CIDR_MASK`. -/
def WGALLOWEDIP_A_CIDR_MASK : Nat := 3
/-- `WGDEVICE_F_REPLACE_PEERS`. -/
def WGDEVICE_F_REPLACE_PEERS : Nat := 1
/-- `WGPEER_F_REMOVE_ME`. -/
def WGPEER_F_REMOVE_ME : Nat := 1
/-- `WGPEER_F_REPLACE_ALLOWEDIPS`. -/
def WGPEER_F_REPLACE_ALLOWEDIPS : Nat := 2

/-! ### Callback results -/

/-- `MNL_CB_ERROR`. -/
def MNL_CB_ERROR : Int := -1
/-- `MNL_CB_STOP`. -/
def MNL_CB_STOP : Int := 0
/-- `MNL_CB_OK`. -/
def MNL_CB_OK : Int := 1

/-! ### Attributes -/

/-- One attribute: a type (as `mnl_attr_get_type` reads it) and a payload of bytes, or a
nest of attributes. -/
inductive Nlattr where
  | attr (type : Nat) (payload : List UInt8)
  | nest (type : Nat) (attrs : List Nlattr)
deriving Repr

namespace Nlattr

/-- `mnl_attr_get_type`. -/
def type : Nlattr → Nat
  | attr t _ => t
  | nest t _ => t

mutual
/-- The bytes an attribute takes in its message: header and padded payload. -/
def size : Nlattr → Nat
  | attr _ p => MNL_ATTR_HDRLEN + mnlAlign p.length
  | nest _ as => MNL_ATTR_HDRLEN + sizes as

/-- The bytes a run of attributes takes. -/
def sizes : List Nlattr → Nat
  | [] => 0
  | a :: as => size a + sizes as
end

mutual
/-- The wire image of an attribute, with its 16-bit `nla_len` and `nla_type`. -/
def toBytes : Nlattr → List UInt8
  | attr t p => leBytes 2 (MNL_ATTR_HDRLEN + p.length) ++ leBytes 2 t ++ p ++
      List.replicate (mnlAlign p.length - p.length) 0
  | nest t as => leBytes 2 (MNL_ATTR_HDRLEN + sizes as) ++ leBytes 2 (t ||| NLA_F_NESTED) ++
      listBytes as

/-- The wire image of a run of attributes. -/
def listBytes : List Nlattr → List UInt8
  | [] => []
  | a :: as => toBytes a ++ listBytes as
end

@[simp] theorem size_attr (t : Nat) (p : List UInt8) :
    (attr t p).size = MNL_ATTR_HDRLEN + mnlAlign p.length := by simp [size]
@[simp] theorem size_nest (t : Nat) (as : List Nlattr) :
    (nest t as).size = MNL_ATTR_HDRLEN + sizes as := by simp [size]
@[simp] theorem sizes_nil : sizes [] = 0 := by simp [sizes]
@[simp] theorem sizes_cons (a : Nlattr) (as : List Nlattr) :
    sizes (a :: as) = a.size + sizes as := by simp [sizes]

@[simp] theorem sizes_append (as bs : List Nlattr) : sizes (as ++ bs) = sizes as + sizes bs := by
  induction as <;> simp [*, Nat.add_assoc]

theorem size_pos (a : Nlattr) : MNL_ATTR_HDRLEN ≤ a.size := by
  cases a <;> simp

/-- `mnl_attr_for_each` over raw bytes: read `nla_len` and `nla_type`, stop at the first
header `mnl_attr_ok` rejects, step by the aligned length.  `fuel` is the byte count, which
every step lowers. -/
def parseAttrsAux : Nat → List UInt8 → List Nlattr
  | 0, _ => []
  | fuel + 1, bs =>
    match bs with
    | l0 :: l1 :: t0 :: t1 :: rest =>
      let len := ofLeBytes [l0, l1]
      if MNL_ATTR_HDRLEN ≤ len ∧ len ≤ bs.length then
        attr (ofLeBytes [t0, t1] % 0x4000) (rest.take (len - MNL_ATTR_HDRLEN)) ::
          parseAttrsAux fuel (bs.drop (mnlAlign len))
      else []
    | _ => []

/-- The attributes a payload of bytes holds, as `mnl_attr_parse_nested` finds them. -/
def parseAttrs (bs : List UInt8) : List Nlattr := parseAttrsAux bs.length bs

/-- `mnl_attr_get_payload`. -/
def payload : Nlattr → List UInt8
  | attr _ p => p
  | nest _ as => listBytes as

/-- The run `mnl_attr_parse_nested` walks. -/
def nested : Nlattr → List Nlattr
  | attr _ p => parseAttrs p
  | nest _ as => as

/-- `mnl_attr_get_payload_len`. -/
def payloadLen (a : Nlattr) : Nat := a.payload.length

/-- `mnl_attr_validate` for a fixed-size type (`MNL_TYPE_U8` to `MNL_TYPE_U64`): the
payload has exactly that size. -/
def validate (a : Nlattr) (n : Nat) : Bool := a.payloadLen == n

/-- `mnl_attr_validate (attr, MNL_TYPE_STRING)`: a non-empty payload. -/
def validateString (a : Nlattr) : Bool := a.payloadLen != 0

/-- `mnl_attr_get_u8` to `mnl_attr_get_u64`: the first `n` payload bytes in host order. -/
def getNum (a : Nlattr) (n : Nat) : Nat := ofLeBytes (a.payload.take n)

/-- `mnl_attr_put_u16`. -/
def u16 (t : Nat) (v : UInt16) : Nlattr := attr t (leBytes 2 v.toNat)
/-- `mnl_attr_put_u32`. -/
def u32 (t : Nat) (v : UInt32) : Nlattr := attr t (leBytes 4 v.toNat)
/-- `mnl_attr_put_u8`. -/
def u8 (t : Nat) (v : UInt8) : Nlattr := attr t [v]
/-- `mnl_attr_put_strz`: the string and its terminating NUL. -/
def strz (t : Nat) (s : List UInt8) : Nlattr := attr t (s ++ [0])

@[simp] theorem payload_attr (t : Nat) (p : List UInt8) : (attr t p).payload = p := rfl
@[simp] theorem nested_nest (t : Nat) (as : List Nlattr) : (nest t as).nested = as := rfl
@[simp] theorem type_attr (t : Nat) (p : List UInt8) : (attr t p).type = t := rfl
@[simp] theorem type_nest (t : Nat) (as : List Nlattr) : (nest t as).type = t := rfl
@[simp] theorem type_u8 (t : Nat) (v : UInt8) : (u8 t v).type = t := rfl
@[simp] theorem type_u16 (t : Nat) (v : UInt16) : (u16 t v).type = t := rfl
@[simp] theorem type_u32 (t : Nat) (v : UInt32) : (u32 t v).type = t := rfl
@[simp] theorem type_strz (t : Nat) (s : List UInt8) : (strz t s).type = t := rfl

@[simp] theorem payloadLen_attr (t : Nat) (p : List UInt8) : (attr t p).payloadLen = p.length :=
  rfl
@[simp] theorem payloadLen_u8 (t : Nat) (v : UInt8) : (u8 t v).payloadLen = 1 := rfl
@[simp] theorem payloadLen_u16 (t : Nat) (v : UInt16) : (u16 t v).payloadLen = 2 := by
  simp [payloadLen, u16]
@[simp] theorem payloadLen_u32 (t : Nat) (v : UInt32) : (u32 t v).payloadLen = 4 := by
  simp [payloadLen, u32]

@[simp] theorem getNum_u8 (t : Nat) (v : UInt8) : (u8 t v).getNum 1 = v.toNat := by
  simp [getNum, u8, ofLeBytes]
@[simp] theorem getNum_u16 (t : Nat) (v : UInt16) : (u16 t v).getNum 2 = v.toNat := by
  simp [getNum, u16, List.take_of_length_le, ofLeBytes_leBytes, Nat.mod_eq_of_lt v.toNat_lt_size]
@[simp] theorem getNum_u32 (t : Nat) (v : UInt32) : (u32 t v).getNum 4 = v.toNat := by
  simp [getNum, u32, List.take_of_length_le, ofLeBytes_leBytes, Nat.mod_eq_of_lt v.toNat_lt_size]

end Nlattr

/-- `errno` after an `mnl_attr_validate` that answers `ok`: a failed validation sets it to
`ERANGE`, whatever the callback then does. -/
def Sys.validated (sys : Sys) (ok : Bool) : Sys := if ok then sys else { sys with errno := ERANGE }

@[simp] theorem Sys.validated_true (sys : Sys) : sys.validated true = sys := rfl

/-- `mnl_attr_parse` and `mnl_attr_parse_nested`: the callback on each attribute in turn,
stopping at the first result `≤ MNL_CB_STOP` and returning it, `MNL_CB_OK` after the
last. -/
def attrParse {σ : Type} (cb : Nlattr → σ → Option (Int × σ)) : List Nlattr → σ → Option (Int × σ)
  | [], s => some (MNL_CB_OK, s)
  | a :: as, s =>
    match cb a s with
    | none => none
    | some (r, s') => if r ≤ MNL_CB_STOP then some (r, s') else attrParse cb as s'

@[simp] theorem attrParse_nil {σ : Type} (cb : Nlattr → σ → Option (Int × σ)) (s : σ) :
    attrParse cb [] s = some (MNL_CB_OK, s) := rfl

theorem attrParse_cons_of_stop {σ : Type} {cb : Nlattr → σ → Option (Int × σ)} {a : Nlattr}
    (as : List Nlattr) {s s' : σ} {r : Int} (h : cb a s = some (r, s')) (hr : r ≤ MNL_CB_STOP) :
    attrParse cb (a :: as) s = some (r, s') := by
  simp [attrParse, h, hr]

theorem attrParse_cons_of_ok {σ : Type} {cb : Nlattr → σ → Option (Int × σ)} {a : Nlattr}
    (as : List Nlattr) {s s' : σ} {r : Int} (h : cb a s = some (r, s')) (hr : MNL_CB_STOP < r) :
    attrParse cb (a :: as) s = attrParse cb as s' := by
  simp [attrParse, h, Int.not_le.mpr hr]

/-- One step of the walk, read backwards: the first callback ran, and either stopped the
walk or handed its state on. -/
theorem attrParse_cons_eq_some {σ : Type} {cb : Nlattr → σ → Option (Int × σ)} {a : Nlattr}
    {as : List Nlattr} {s s' : σ} {r : Int} (h : attrParse cb (a :: as) s = some (r, s')) :
    ∃ r₁ s₁, cb a s = some (r₁, s₁) ∧
      ((r₁ ≤ MNL_CB_STOP ∧ r₁ = r ∧ s₁ = s') ∨ (MNL_CB_STOP < r₁ ∧ attrParse cb as s₁ = some (r, s'))) := by
  unfold attrParse at h
  rcases hc : cb a s with _ | ⟨r₁, s₁⟩ <;> rw [hc] at h
  · cases h
  · refine ⟨r₁, s₁, rfl, ?_⟩
    by_cases hr : r₁ ≤ MNL_CB_STOP
    · simp only [if_pos hr, Option.some.injEq, Prod.mk.injEq] at h
      exact .inl ⟨hr, h⟩
    · simp only [if_neg hr] at h
      exact .inr ⟨Int.not_le.mp hr, h⟩

/-- What every callback result satisfies, the walk's result satisfies. -/
theorem attrParse_result {σ : Type} (P : Int → Prop) (hok : P MNL_CB_OK)
    {cb : Nlattr → σ → Option (Int × σ)} (hcb : ∀ a s r s', cb a s = some (r, s') → P r) :
    ∀ (as : List Nlattr) (s : σ) {r : Int} {s' : σ}, attrParse cb as s = some (r, s') → P r
  | [], _, _, _, h => by cases h; exact hok
  | _ :: as, _, _, _, h => by
    obtain ⟨r₁, s₁, h₁, ⟨-, rfl, -⟩ | ⟨-, h⟩⟩ := attrParse_cons_eq_some h
    · exact hcb _ _ _ _ h₁
    · exact attrParse_result P hok hcb as s₁ h

/-- An invariant every callback keeps when it lets the walk go on is kept by a walk that
ends past `MNL_CB_STOP`. -/
theorem attrParse_inv {σ : Type} (I : σ → Prop) {cb : Nlattr → σ → Option (Int × σ)}
    (hcb : ∀ a s r s', I s → cb a s = some (r, s') → MNL_CB_STOP < r → I s') :
    ∀ (as : List Nlattr) (s : σ) {r : Int} {s' : σ}, I s → attrParse cb as s = some (r, s') →
      MNL_CB_STOP < r → I s'
  | [], _, _, _, hs, h, _ => by cases h; exact hs
  | _ :: as, _, _, _, hs, h, hr => by
    obtain ⟨r₁, s₁, h₁, ⟨-, rfl, rfl⟩ | ⟨hr₁, h⟩⟩ := attrParse_cons_eq_some h
    · exact hcb _ _ _ _ hs h₁ hr
    · exact attrParse_inv I hcb as s₁ (hcb _ _ _ _ hs h₁ hr₁) h hr

/-- A walk whose callbacks each give a result, keeping an invariant, gives one too. -/
theorem attrParse_total {σ : Type} (I : σ → Prop) {cb : Nlattr → σ → Option (Int × σ)}
    (hcb : ∀ a s, I s → ∃ r s', cb a s = some (r, s') ∧ I s') :
    ∀ (as : List Nlattr) (s : σ), I s → ∃ r s', attrParse cb as s = some (r, s') ∧ I s'
  | [], s, hs => ⟨MNL_CB_OK, s, rfl, hs⟩
  | a :: as, s, hs => by
    obtain ⟨r, s₁, h₁, hs₁⟩ := hcb a s hs
    by_cases hr : r ≤ MNL_CB_STOP
    · exact ⟨r, s₁, attrParse_cons_of_stop as h₁ hr, hs₁⟩
    · rw [attrParse_cons_of_ok as h₁ (Int.not_le.mp hr)]
      exact attrParse_total I hcb as s₁ hs₁

end WireguardIpc

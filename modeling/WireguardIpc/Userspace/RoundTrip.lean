/-
The userspace round trip: the request `userspace_set_device` writes for a device, read by
`userspace_get_device` with an `errno=0` line before its blank line, gives the device back.

The two sides meet the outside world through the key codec, `inet_ntop`/`inet_pton` and
`getnameinfo`/`getaddrinfo`.  `Extern.Inverse` asks that each pair undo the other on what
the writer hands it, with texts that can stand in a line.  The proof runs in two halves that
meet at the specification's reading of a reply (`Userspace/Fold.lean`): the code follows
the reading line by line wherever the reading accepts a line (`getLoop_of_refFold`), and
the reading of the request is the device that was written (`refFold_setPairs`).
-/
import WireguardIpc.Userspace.Fold
import WireguardIpc.Userspace.Set

namespace WireguardIpc

/-! ### What is asked of the outside world -/

/-- The external functions undo each other on what the writer hands them. -/
structure Extern.Inverse (ext : Extern) : Prop where
  /-- `key_from_hex` reads back what `key_to_hex` writes. -/
  keyFromHex_keyToHex : ∀ k, ext.keyFromHex (ext.keyToHex k) = some k
  inline_keyToHex : ∀ k, Inline (ext.keyToHex k)
  /-- `inet_ntop(AF_INET)` writes a text without `/` or `:`, which `inet_pton` reads back. -/
  ntop_inet : ∀ b : List UInt8, b.length = 4 → ∃ t, ext.inetNtop AF_INET b = some t ∧
    Inline t ∧ slash ∉ t ∧ colon ∉ t ∧ ext.inetPton AF_INET t = some b
  /-- `inet_ntop(AF_INET6)` writes a text without `/` and with a `:`, which `inet_pton` reads
  back. -/
  ntop_inet6 : ∀ b : List UInt8, b.length = 16 → ∃ t, ext.inetNtop AF_INET6 b = some t ∧
    Inline t ∧ slash ∉ t ∧ colon ∈ t ∧ ext.inetPton AF_INET6 t = some b
  /-- Numeric `getnameinfo` on an endpoint's socket address gives a host and a service that
  `getaddrinfo` resolves back to that address. -/
  nameinfo : ∀ (e : Endpoint) (addr : List UInt8), e.addr = some addr → ∃ host service,
    ext.getnameinfo addr = some (host, service) ∧ Inline host ∧ Inline service ∧
    service ≠ [] ∧ colon ∉ service ∧ closeBracket ∉ host ∧ host.head? ≠ some openBracket ∧
    ext.getaddrinfo host service = some ⟨e.family, addr.length, addr⟩

/-! ### What the writer writes, and that the reader's stores take it back -/

theorem Endpoint.addr_eq_take {e : Endpoint} (hf : e.family = AF_INET ∨ e.family = AF_INET6) :
    e.addr = some (e.data.take (if e.family = AF_INET then SOCKADDR_IN_LEN else SOCKADDR_IN6_LEN)) := by
  by_cases h4 : e.family = AF_INET
  · rw [Endpoint.addr, if_pos h4, if_pos h4]
  · have h6 := hf.resolve_left h4
    rw [Endpoint.addr, if_neg h4, if_pos h6, if_neg h4, List.take_of_length_le (by simp)]

/-- An endpoint value that splits into a host and service `getaddrinfo` resolves to an
address of its family's size resolves to that address. -/
theorem resolveEndpoint_of_getaddrinfo {ext : Extern} {e : Endpoint} {addr host service value : List UInt8}
    (hsplit : endpointHostService value = some (host, service))
    (hai : ext.getaddrinfo host service = some ⟨e.family, addr.length, addr⟩)
    (hlen : e.family = AF_INET ∧ addr.length = SOCKADDR_IN_LEN ∨
      e.family = AF_INET6 ∧ addr.length = SOCKADDR_IN6_LEN) :
    resolveEndpoint ext value = .addr addr := by
  simp only [resolveEndpoint, hsplit, hai, if_pos hlen, List.take_length]

theorem allowedipText_decimal {ip : List UInt8} (h : slash ∉ ip) (n : Nat) :
    allowedipText (ip ++ slash :: decimal n) = some (ip, decimal n) := by
  simp only [allowedipText, strsepSlash_append h, isdigit_headD_decimal, ↓reduceIte]

/-- An allowed-ip whose address text `inet_pton` reads back, with the family the text's
colon picks, is read back as it was sent. -/
theorem allowedipRecord_decimal {ext : Extern} {a : Wgallowedip} (ha : a.valid) {ip : List UInt8}
    (hf : a.family.toNat = if colon ∈ ip then AF_INET6 else AF_INET)
    (hp : (if colon ∈ ip then ext.inetPton AF_INET6 ip else ext.inetPton AF_INET ip) = some a.addr) :
    allowedipRecord ext ip (decimal a.cidr.toNat) = some a.decoded := by
  have hc : a.cidr.toNat ≤ ULLONG_MAX := by
    have : a.cidr.toNat < 256 := a.cidr.toNat_lt_size
    unfold ULLONG_MAX; omega
  have hfam : UInt16.ofNat (if colon ∈ ip then AF_INET6 else AF_INET) = a.family := by
    rw [← hf, UInt16.ofNat_toNat]
  simp only [Wgallowedip.valid, Bool.or_eq_true, Bool.and_eq_true, beq_iff_eq,
    decide_eq_true_eq] at ha
  unfold allowedipRecord
  split_ifs at hf hp hfam ⊢ with hcol <;>
    simp only [hp, strtoul, strtoull_decimal hc, List.headD_nil, ne_eq, not_true_eq_false, hf,
      hfam, false_or, UInt8.ofNat_toNat] <;>
    (rw [if_neg (by simp only [AF_INET, AF_INET6, AF_UNSPEC] at ha hf ⊢; omega)]; rfl)

/-! ### The code follows the reading -/

/-- **The code follows the specification's reading**: with every allocation succeeding, the
code reads written lines, none of them `errno`, as the specification does, and ends where
the reading ends with `ret` as it was. -/
theorem getLoop_of_refFold (ext : Extern) (rest : List (List UInt8)) :
    ∀ (pairs : List (List UInt8 × List UInt8)) (st : GetState) (s s' : RefState),
    Reads st s → st.sys.allocs = [] →
    (∀ kv ∈ pairs, Writable kv ∧ GetKey.ofBytes kv.1 ≠ .errno) →
    refFold ext s pairs = some s' →
    ∃ st', getLoop ext (pairs.map keyValueLine ++ rest) st = getLoop ext rest st' ∧
      Reads st' s' ∧ st'.ret = st.ret ∧ st'.sys.allocs = []
  | [], st, s, s', h, hsys, _, hf => by
    obtain rfl : s = s' := Option.some.inj hf
    exact ⟨st, rfl, h, rfl, hsys⟩
  | kv :: pairs, st, s, s', h, hsys, hok, hf => by
    obtain ⟨hw, herr⟩ := hok kv (List.mem_cons_self _ _)
    obtain ⟨s₁, h₁, hf'⟩ := Option.bind_eq_some.1 hf
    obtain ⟨st₁, hg, hr₁, hret₁, hsys₁⟩ := (h.lineAgrees kv.1 kv.2).2 hsys herr s₁ h₁
    obtain ⟨st', hl, hr', hret', hsys'⟩ := getLoop_of_refFold ext rest pairs st₁ s₁ s' hr₁ hsys₁
      (fun kv hkv => hok kv (List.mem_cons_of_mem _ hkv)) hf'
    refine ⟨st', ?_, hr', hret'.trans hret₁, hsys'⟩
    rw [List.map_cons, List.cons_append, getLoop, parseLine_keyValueLine hw]
    simp only [hg]
    exact hl

/-! ### The lines of a request -/

/-- The keys `userspace_set_device` writes. -/
def setKeys : List (List UInt8) :=
  [cstr "set", cstr "private_key", cstr "listen_port", cstr "fwmark", cstr "replace_peers",
    cstr "public_key", cstr "remove", cstr "preshared_key", cstr "endpoint",
    cstr "persistent_keepalive_interval", cstr "replace_allowed_ips", cstr "allowed_ip"]

/-- A line of a request: one of the writer's keys, and a value that can stand in a line. -/
def SetLine (kv : List UInt8 × List UInt8) : Prop := kv.1 ∈ setKeys ∧ Inline kv.2

theorem setLine_mk {k v : List UInt8} (hk : k ∈ setKeys) (hv : Inline v) : SetLine (k, v) :=
  ⟨hk, hv⟩

/-- None of the writer's keys holds `=`, a NUL or a newline, or is `errno`. -/
theorem setKeys_readable : ∀ k ∈ setKeys, equalsSign ∉ k ∧ Inline k ∧ GetKey.ofBytes k ≠ .errno := by
  decide

theorem SetLine.readable {kv : List UInt8 × List UInt8} (h : SetLine kv) :
    Writable kv ∧ GetKey.ofBytes kv.1 ≠ .errno :=
  have hk := setKeys_readable kv.1 h.1
  ⟨⟨hk.1, hk.2.1, h.2⟩, hk.2.2⟩

/-! ### The reading of a request, segment by segment -/

theorem refFold_append {ext : Extern} (s : RefState) (l₁ l₂ : List (List UInt8 × List UInt8)) :
    refFold ext s (l₁ ++ l₂) = (refFold ext s l₁).bind fun s => refFold ext s l₂ :=
  List.foldlM_append _ _ _ _

theorem refFold_cons {ext : Extern} (s : RefState) (kv : List UInt8 × List UInt8)
    (l : List (List UInt8 × List UInt8)) :
    refFold ext s (kv :: l) = (refLine ext s kv.1 kv.2).bind fun s => refFold ext s l :=
  List.foldlM_cons _ _ _ _

/-- A line the reading passes over. -/
theorem refFold_other {ext : Extern} (s : RefState) (kv : List UInt8 × List UInt8)
    (hk : GetKey.ofBytes kv.1 = .other) : refFold ext s [kv] = some s := by
  simp only [refFold_cons, refLine, hk, Option.some_bind]; rfl

theorem refFold_ite_other {ext : Extern} (s : RefState) (c : Prop) [Decidable c]
    (kv : List UInt8 × List UInt8) (hk : GetKey.ofBytes kv.1 = .other) :
    refFold ext s (if c then [kv] else []) = some s := by
  split
  · exact refFold_other s kv hk
  · rfl

/-- An optional line of a field that `NUM` reads, its value the decimal of a number within
the field's bound: the reading stores that number, through the field's store (`set`) into
the scope the line updates (`update`, the device or the current peer). -/
theorem refFold_num {ext : Extern} {β : Type} (D : Wgdevice) (cur : Option Wgpeer) (c : Prop)
    [Decidable c] (key : List UInt8) (max : Nat) (set : Nat → β → β) (update : (β → β) → RefState)
    (hline : ∀ value, refLine ext ⟨D, cur⟩ key value = ((NUM max value).map set).map update)
    (hid : update id = ⟨D, cur⟩) (hmax : max ≤ ULLONG_MAX) {n : Nat} (hn : n ≤ max) :
    refFold ext ⟨D, cur⟩ (if c then [(key, decimal n)] else []) =
      some (update (if c then set n else id)) := by
  split
  · rw [refFold_cons, hline, NUM_decimal hn hmax]; rfl
  · rw [hid]; rfl

section Inverse

variable {ext : Extern} (hinv : ext.Inverse)
include hinv

/-- What `endpointPair` writes: nothing for an endpoint with no address, and otherwise one
line whose value resolves back to the address. -/
theorem endpointPair_spec (e : Endpoint) :
    (e.addr = none ∧ endpointPair ext e = []) ∨
      ∃ addr value, e.addr = some addr ∧ endpointPair ext e = [(cstr "endpoint", value)] ∧
        Inline value ∧ resolveEndpoint ext value = .addr addr := by
  by_cases hf : e.family = AF_INET ∨ e.family = AF_INET6
  · right
    have ha := Endpoint.addr_eq_take hf
    obtain ⟨host, service, hn, hhost, hserv, hs, hsc, hb, hh, hai⟩ := hinv.nameinfo e _ ha
    have hlen : e.family = AF_INET ∧ (e.data.take (if e.family = AF_INET then SOCKADDR_IN_LEN
        else SOCKADDR_IN6_LEN)).length = SOCKADDR_IN_LEN ∨ e.family = AF_INET6 ∧
        (e.data.take (if e.family = AF_INET then SOCKADDR_IN_LEN
        else SOCKADDR_IN6_LEN)).length = SOCKADDR_IN6_LEN := by
      rcases hf with h | h <;> simp [h, AF_INET, AF_INET6, SOCKADDR_IN_LEN, SOCKADDR_IN6_LEN]
    have hw := show endpointPair ext e = _ by simp only [endpointPair, if_pos hf, hn]; rfl
    by_cases hbr : e.family = AF_INET6 ∧ colon ∈ host
    · exact ⟨_, _, ha, by rw [hw, if_pos hbr]; rfl,
        (hhost.append ((hserv.cons (by decide)).cons (by decide))).cons (by decide),
        resolveEndpoint_of_getaddrinfo (endpointHostService_bracket hb hs) hai hlen⟩
    · exact ⟨_, _, ha, by rw [hw, if_neg hbr], hhost.append (hserv.cons (by decide)),
        resolveEndpoint_of_getaddrinfo (endpointHostService_plain hh hs hsc) hai hlen⟩
  · left
    obtain ⟨h4, h6⟩ := not_or.1 hf
    exact ⟨by rw [Endpoint.addr, if_neg h4, if_neg h6], if_neg hf⟩

/-- What `allowedipPair` writes for a valid allowed-ip: one line, whose value the reader
takes back to the allowed-ip. -/
theorem allowedipPair_spec {a : Wgallowedip} (ha : a.valid) :
    ∃ value, allowedipPair ext a = some (cstr "allowed_ip", value) ∧ Inline value ∧
      ((allowedipText value).bind fun t => allowedipRecord ext t.1 t.2) = some a.decoded := by
  have hmask := (inline_of_digits (isdigit_decimal a.cidr.toNat)).cons (b := slash) (by decide)
  have hv := ha
  simp only [Wgallowedip.valid, Bool.or_eq_true, Bool.and_eq_true, beq_iff_eq,
    decide_eq_true_eq] at hv
  rcases hv with ⟨h4, -⟩ | ⟨h6, -⟩
  · obtain ⟨t, hn, ht, hsl, hco, hp⟩ := hinv.ntop_inet (a.ip.data.take 4) (by simp)
    refine ⟨_, by simp only [allowedipPair, if_pos h4, hn, Option.map_some'], ht.append hmask, ?_⟩
    rw [allowedipText_decimal hsl, Option.some_bind]
    exact allowedipRecord_decimal ha (by rw [if_neg hco, h4])
      (by rw [if_neg hco, hp, Wgallowedip.addr, if_pos h4])
  · have h4 : a.family.toNat ≠ AF_INET := by rw [h6]; decide
    obtain ⟨t, hn, ht, hsl, hco, hp⟩ := hinv.ntop_inet6 a.ip.data (by simp)
    refine ⟨_, by simp only [allowedipPair, if_neg h4, if_pos h6, hn, Option.map_some'],
      ht.append hmask, ?_⟩
    rw [allowedipText_decimal hsl, Option.some_bind]
    exact allowedipRecord_decimal ha (by rw [if_pos hco, h6])
      (by rw [if_pos hco, hp, Wgallowedip.addr, if_neg h4])

theorem setLine_peerPairs {p : Wgpeer} (hvalid : ∀ a ∈ p.allowedips, a.valid) :
    ∀ kv ∈ peerPairs ext p, SetLine kv := by
  have hdec : Inline (decimal p.persistentKeepaliveInterval.toNat) :=
    inline_of_digits (isdigit_decimal _)
  have htrue : Inline (cstr "true") := inline_cstr_of_forall (by decide)
  have hep : ∀ kv ∈ endpointPair ext p.endpoint, SetLine kv := by
    rcases endpointPair_spec hinv p.endpoint with ⟨-, h⟩ | ⟨_, v, -, h, hv, -⟩ <;>
      simp only [h, List.not_mem_nil, List.mem_singleton, IsEmpty.forall_iff, implies_true,
        forall_eq]
    exact setLine_mk (by decide) hv
  have hai : ∀ kv ∈ p.allowedips.filterMap (allowedipPair ext), SetLine kv := by
    simp only [List.mem_filterMap]
    rintro kv ⟨a, ha, hkv⟩
    obtain ⟨v, hv, hi, -⟩ := allowedipPair_spec hinv (hvalid a ha)
    obtain rfl := Option.some.inj (hv.symm.trans hkv)
    exact setLine_mk (by decide) hi
  intro kv hkv
  simp only [peerPairs, List.mem_cons] at hkv
  rcases hkv with rfl | hkv
  · exact setLine_mk (by decide) (hinv.inline_keyToHex _)
  by_cases hr : p.flags.removeMe
  · rw [if_pos hr] at hkv
    obtain rfl := List.mem_singleton.1 hkv
    exact setLine_mk (by decide) htrue
  · rw [if_neg hr] at hkv
    simp only [List.mem_append, List.mem_ite_nil_right, List.mem_singleton] at hkv
    rcases hkv with (((⟨-, rfl⟩ | h) | ⟨-, rfl⟩) | ⟨-, rfl⟩) | h
    · exact setLine_mk (by decide) (hinv.inline_keyToHex _)
    · exact hep kv h
    · exact setLine_mk (by decide) hdec
    · exact setLine_mk (by decide) htrue
    · exact hai kv h

/-- Every line of the request is one the reader splits back and does not take for `errno`. -/
theorem setLine_setPairs {dev : Wgdevice} (hvalid : ∀ p ∈ dev.peers, ∀ a ∈ p.allowedips, a.valid) :
    ∀ kv ∈ setPairs ext dev, SetLine kv := by
  intro kv hkv
  simp only [setPairs, List.mem_append, List.mem_ite_nil_right, List.mem_singleton,
    List.mem_flatMap] at hkv
  rcases hkv with ((((rfl | ⟨-, rfl⟩) | ⟨-, rfl⟩) | ⟨-, rfl⟩) | ⟨-, rfl⟩) | ⟨p, hp, h⟩
  · exact setLine_mk (by decide) (inline_cstr_of_forall (by decide))
  · exact setLine_mk (by decide) (hinv.inline_keyToHex _)
  · exact setLine_mk (by decide) (inline_of_digits (isdigit_decimal _))
  · exact setLine_mk (by decide) (inline_of_digits (isdigit_decimal _))
  · exact setLine_mk (by decide) (inline_cstr_of_forall (by decide))
  · exact setLine_peerPairs hinv (hvalid p hp) kv h

/-! ### The reading of one peer's lines -/

theorem refLine_publicKey (s : RefState) (k : Key) :
    refLine ext s (cstr "public_key") (ext.keyToHex k) =
      some ⟨s.result, some (Wgpeer.zero.withPublicKey k)⟩ := by
  simp only [refLine, show GetKey.ofBytes (cstr "public_key") = .publicKey by decide,
    hinv.keyFromHex_keyToHex, Option.map_some']

theorem refFold_presharedKey (D : Wgdevice) (q : Wgpeer) (c : Prop) [Decidable c] (k : Key) :
    refFold ext ⟨D, some q⟩ (if c then [(cstr "preshared_key", ext.keyToHex k)] else []) =
      some ⟨D, some (if c then { q with presharedKey := k, flags := { q.flags with
        hasPresharedKey := q.flags.hasPresharedKey || !k.isZero } } else q)⟩ := by
  split
  · simp only [refFold_cons, refLine, show GetKey.ofBytes (cstr "preshared_key") = .presharedKey
      by decide, storeInPeer, hinv.keyFromHex_keyToHex, Option.map_some', Option.some_bind]
    rfl
  · rfl

theorem refFold_endpointPair (D : Wgdevice) (q : Wgpeer) (e : Endpoint) :
    refFold ext ⟨D, some q⟩ (endpointPair ext e) =
      some ⟨D, some { q with endpoint := (e.addr.map q.endpoint.copyIn).getD q.endpoint }⟩ := by
  rcases endpointPair_spec hinv e with ⟨ha, h⟩ | ⟨addr, v, ha, h, -, hr⟩
  · rw [h, ha]; rfl
  · simp only [h, ha, refFold_cons, refLine, show GetKey.ofBytes (cstr "endpoint") = .endpoint
      by decide, hr, Option.some_bind, Option.map_some', Option.getD_some]
    rfl

theorem refFold_allowedips (D : Wgdevice) (l : List Wgallowedip) (hvalid : ∀ a ∈ l, a.valid) :
    ∀ q : Wgpeer, refFold ext ⟨D, some q⟩ (l.filterMap (allowedipPair ext)) =
      some ⟨D, some { q with allowedips := q.allowedips ++ l.map Wgallowedip.decoded }⟩ := by
  induction l with
  | nil => intro q; simp only [List.filterMap_nil, List.map_nil, List.append_nil]; rfl
  | cons a l ih =>
    intro q
    obtain ⟨v, hv, -, hr⟩ := allowedipPair_spec hinv (hvalid a (List.mem_cons_self a l))
    rw [List.filterMap_cons_some hv, refFold_cons]
    simp only [refLine, show GetKey.ofBytes (cstr "allowed_ip") = .allowedIp by decide, hr,
      Option.map_some', Option.some_bind]
    rw [ih (fun b hb => hvalid b (List.mem_cons_of_mem a hb))]
    simp only [List.map_cons, List.append_assoc, List.singleton_append]

/-- **A peer's lines are read back as the peer**: from any reading, the lines written for a
peer finish the current peer and leave, as the new current one, a peer the backend cannot
tell from the one written. -/
theorem refFold_peerPairs {p : Wgpeer} (hr : p.flags.removeMe = false)
    (hvalid : ∀ a ∈ p.allowedips, a.valid) (s : RefState) :
    ∃ q, refFold ext s (peerPairs ext p) = some ⟨s.result, some q⟩ ∧ SamePeer p q := by
  rw [peerPairs, if_neg (by simp [hr]), refFold_cons]
  simp only [refLine_publicKey hinv, Option.some_bind, refFold_append, refFold_presharedKey hinv,
    refFold_endpointPair hinv,
    refFold_num _ (some _) _ (cstr "persistent_keepalive_interval") 0xffff _ _ (fun _ => rfl) rfl
      (by decide) (Nat.le_of_lt_succ (UInt16.toNat_lt_size _)), ite_apply, id_eq, UInt16.ofNat_toNat,
    refFold_ite_other _ _ (cstr "replace_allowed_ips", cstr "true") (by decide),
    refFold_allowedips hinv _ _ hvalid]
  refine ⟨_, rfl, ?_⟩
  constructor
  · split_ifs <;> rfl
  · intro hp hz
    simp only [hp, ↓reduceIte, hz]
    split_ifs <;> exact ⟨rfl, rfl⟩
  · simp only
    split_ifs <;> exact Endpoint.addr_copyIn p.endpoint
  · intro hk
    simp only [hk, ↓reduceIte]
  · simp only [List.nil_append]
    split_ifs <;> exact List.forall₂_map_right_iff.2 (List.forall₂_same.2 fun a _ => a.same_decoded)

/-- The peers' lines, read from any reading, add one peer for each peer written. -/
theorem refFold_peers (ps : List Wgpeer) (hr : ∀ p ∈ ps, p.flags.removeMe = false)
    (hvalid : ∀ p ∈ ps, ∀ a ∈ p.allowedips, a.valid) (s : RefState) :
    ∃ s' qs, refFold ext s (ps.flatMap (peerPairs ext)) = some s' ∧
      s'.result = { s.result with peers := s.result.peers ++ qs } ∧ List.Forall₂ SamePeer ps qs := by
  induction ps generalizing s with
  | nil => exact ⟨s, [], rfl, by rw [List.append_nil], .nil⟩
  | cons p ps ih =>
    obtain ⟨q, hq, hsame⟩ := refFold_peerPairs hinv (hr p (List.mem_cons_self p ps))
      (hvalid p (List.mem_cons_self p ps)) s
    obtain ⟨s', qs, hf, hres, hall⟩ := ih (fun p hp => hr p (List.mem_cons_of_mem _ hp))
      (fun p hp => hvalid p (List.mem_cons_of_mem _ hp)) ⟨s.result, some q⟩
    refine ⟨s', q :: qs, ?_, ?_, .cons hsame hall⟩
    · rw [List.flatMap_cons, refFold_append, hq, Option.some_bind, hf]
    · rw [hres]
      simp only [RefState.result, Option.toList_some, List.append_assoc, List.singleton_append]

theorem refFold_privateKey (D : Wgdevice) (c : Prop) [Decidable c] (k : Key) :
    refFold ext ⟨D, none⟩ (if c then [(cstr "private_key", ext.keyToHex k)] else []) =
      some ⟨if c then
          { D with privateKey := k, publicKey := ext.curve25519GeneratePublic k,
                   flags := { D.flags with hasPrivateKey := true, hasPublicKey := true } }
        else D, none⟩ := by
  split
  · simp only [refFold_cons, refLine, show GetKey.ofBytes (cstr "private_key") = .privateKey
      by decide, storeInDevice, hinv.keyFromHex_keyToHex, Option.map_some', Option.some_bind]
    rfl
  · rfl

/-- **A request is read back as the device**: the reading of the lines written for a device,
started from a device of the same name with no peers, is a device the backend cannot tell
from the one written. -/
theorem refFold_setPairs {dev D : Wgdevice} (hname : D.name = dev.name) (hD : D.peers = [])
    (hr : ∀ p ∈ dev.peers, p.flags.removeMe = false)
    (hvalid : ∀ p ∈ dev.peers, ∀ a ∈ p.allowedips, a.valid) :
    ∃ s', refFold ext ⟨D, none⟩ (setPairs ext dev) = some s' ∧ SameDevice dev s'.result := by
  simp only [setPairs, refFold_append, refFold_other _ (cstr "set", cstr "1") (by decide),
    refFold_privateKey hinv,
    refFold_num _ none _ (cstr "listen_port") 0xffff _ _ (fun _ => rfl) rfl (by decide)
      (Nat.le_of_lt_succ (UInt16.toNat_lt_size _)),
    refFold_num _ none _ (cstr "fwmark") 0xffffffff _ _ (fun _ => rfl) rfl (by decide)
      (Nat.le_of_lt_succ (UInt32.toNat_lt_size _)), ite_apply, id_eq, UInt16.ofNat_toNat,
    UInt32.ofNat_toNat,
    refFold_ite_other _ _ (cstr "replace_peers", cstr "true") (by decide), Option.some_bind]
  obtain ⟨s', qs, hf, hres, hall⟩ := refFold_peers hinv dev.peers hr hvalid _
  refine ⟨s', hf, ⟨?_, ?_, ?_, ?_, ?_⟩⟩ <;> rw [hres]
  · simp only [RefState.result, apply_ite Wgdevice.name, ite_self]
    exact hname
  · intro h; simp only [RefState.result, h, ↓reduceIte, apply_ite Wgdevice.privateKey, ite_self]
  · intro h; simp only [RefState.result, h, ↓reduceIte, apply_ite Wgdevice.listenPort, ite_self]
  · intro h; simp only [RefState.result, h, ↓reduceIte]
  · simp only [RefState.result, apply_ite Wgdevice.peers, ite_self, hD, List.nil_append]
    exact hall

end Inverse


/-! ### The round trip -/

/-- The SET's lines with `errno=0` put before the blank line that ends them. -/
theorem request_errno_zero (ext : Extern) (dev : Wgdevice) (reply : List UInt8) (errno : Nat) :
    (userspaceSetDevice ext dev none reply errno).2.dropLast ++ cstr "errno=0\n\n" =
      request (setPairs ext dev ++ [(cstr "errno", cstr "0")]) := by
  simp only [userspaceSetDevice, request, List.dropLast_concat, List.map_append, List.map_cons,
    List.map_nil, List.flatten_append, List.flatten_cons, List.flatten_nil, List.append_nil,
    List.append_assoc]
  rfl

/-- **What `userspace_set_device` writes, `userspace_get_device` reads back.**  For every
device whose peers are not flagged for removal and whose allowed-ips are valid, the lines the
SET writes, with `errno=0` put before the blank line that ends them, are read by the GET of
the same interface, every allocation succeeding, as a device with the same name, the same
flagged fields, and the same peers in order. -/
theorem userspace_set_get_roundTrip (ext : Extern) (hinv : ext.Inverse) (dev : Wgdevice)
    (hr : ∀ p ∈ dev.peers, p.flags.removeMe = false)
    (hvalid : ∀ p ∈ dev.peers, ∀ a ∈ p.allowedips, a.valid) (reply : List UInt8) (errno e : Nat) :
    ∃ d, userspaceGetDevice ext ⟨[], e⟩ none (dev.name.chars ++ [0])
        ((userspaceSetDevice ext dev none reply errno).2.dropLast ++ cstr "errno=0\n\n") =
        (0, some d) ∧ SameDevice dev d := by
  have hlines : ∀ kv ∈ setPairs ext dev, Writable kv ∧ GetKey.ofBytes kv.1 ≠ .errno :=
    fun kv hkv => (setLine_setPairs hinv hvalid kv hkv).readable
  have herrno : Writable (cstr "errno", cstr "0") :=
    ⟨show equalsSign ∉ cstr "errno" by decide, inline_cstr_of_forall (by decide),
      inline_cstr_of_forall (by decide)⟩
  have hall : ∀ kv ∈ setPairs ext dev ++ [(cstr "errno", cstr "0")], Writable kv := by
    simp only [List.mem_append, List.mem_singleton]
    rintro kv (hkv | rfl)
    exacts [(hlines kv hkv).1, herrno]
  let D : Wgdevice := { Wgdevice.zero with name := IfName.ofCString (dev.name.chars ++ [0]) }
  obtain ⟨s', hf, hsame⟩ := refFold_setPairs hinv (D := D) (IfName.ofCString_chars dev.name) rfl hr
    hvalid
  obtain ⟨st', hloop, hreads, hret, -⟩ := getLoop_of_refFold ext
    [keyValueLine (cstr "errno", cstr "0"), [newline]] _ ⟨D, none, none, -(EPROTO : Int), ⟨[], e⟩⟩
    ⟨D, none⟩ s' ⟨rfl, rfl, fun _ => rfl, rfl⟩ rfl hlines hf
  refine ⟨s'.result, ?_, hsame⟩
  rw [request_errno_zero, userspaceGetDevice, getlines_request _ hall, List.map_append,
    List.append_assoc]
  simp only [Sys.calloc, Bool.not_true, Bool.false_eq_true, ↓reduceIte, List.map_cons,
    List.map_nil, List.singleton_append]
  rw [hloop]
  simp only [getLoop, parseLine_keyValueLine herrno, getLine,
    show GetKey.ofBytes (cstr "errno") = .errno by decide,
    show NUM 0x7fffffff (cstr "0") = some 0 by decide, LineOutcome.ofStore,
    show parseLine [newline] = .blank by decide, Nat.cast_zero, neg_zero, ne_eq,
    not_true_eq_false, ↓reduceIte, hreads.device]

/-! ### External functions that meet the laws -/

/-- The lowercase hexadecimal digit of a value below 16. -/
def hexDigit (n : Nat) : UInt8 := UInt8.ofNat (if n < 10 then 48 + n else 87 + n)

/-- Bytes in hexadecimal, two digits each. -/
def hexEncode (l : List UInt8) : List UInt8 :=
  l.flatMap fun b => [hexDigit (b.toNat / 16), hexDigit (b.toNat % 16)]

/-- The value of a lowercase hexadecimal digit. -/
def hexValue (c : UInt8) : Option Nat :=
  if 48 ≤ c.toNat ∧ c.toNat ≤ 57 then some (c.toNat - 48)
  else if 97 ≤ c.toNat ∧ c.toNat ≤ 102 then some (c.toNat - 87)
  else none

/-- Hexadecimal back to bytes. -/
def hexDecode : List UInt8 → Option (List UInt8)
  | [] => some []
  | [_] => none
  | hi :: lo :: rest => do
    let h ← hexValue hi
    let l ← hexValue lo
    let r ← hexDecode rest
    pure (UInt8.ofNat (16 * h + l) :: r)

theorem hexValue_hexDigit : ∀ n < 16, hexValue (hexDigit n) = some n := by decide

/-- No hexadecimal digit is a NUL, a newline, or a character the request's syntax uses. -/
theorem hexDigit_plain : ∀ n < 16, hexDigit n ≠ 0 ∧ hexDigit n ≠ newline ∧ hexDigit n ≠ colon ∧
    hexDigit n ≠ slash ∧ hexDigit n ≠ closeBracket ∧ hexDigit n ≠ openBracket := by
  decide

theorem hexDecode_hexEncode (l : List UInt8) : hexDecode (hexEncode l) = some l := by
  induction l with
  | nil => rfl
  | cons b l ih =>
    have hb : b.toNat < 256 := b.toNat_lt_size
    have hcons : hexEncode (b :: l) =
        hexDigit (b.toNat / 16) :: hexDigit (b.toNat % 16) :: hexEncode l := rfl
    rw [hcons, hexDecode, hexValue_hexDigit _ (by omega), hexValue_hexDigit _ (by omega), ih]
    show some (UInt8.ofNat (16 * (b.toNat / 16) + b.toNat % 16) :: l) = some (b :: l)
    rw [Nat.div_add_mod, UInt8.ofNat_toNat]

theorem hexDigit_of_mem_hexEncode {c : UInt8} {l : List UInt8} (h : c ∈ hexEncode l) :
    ∃ n < 16, hexDigit n = c := by
  simp only [hexEncode, List.mem_flatMap, List.mem_cons, List.mem_singleton,
    List.not_mem_nil, or_false] at h
  obtain ⟨b, -, rfl | rfl⟩ := h
  · exact ⟨_, by have : b.toNat < 256 := b.toNat_lt_size; omega, rfl⟩
  · exact ⟨_, Nat.mod_lt _ (by decide), rfl⟩

/-- Hexadecimal text holds none of the characters the request's syntax uses. -/
theorem hexEncode_plain (l : List UInt8) : Inline (hexEncode l) ∧ colon ∉ hexEncode l ∧
    slash ∉ hexEncode l ∧ closeBracket ∉ hexEncode l ∧ (hexEncode l).head? ≠ some openBracket := by
  have hplain : ∀ c ∈ hexEncode l, c ≠ 0 ∧ c ≠ newline ∧ c ≠ colon ∧ c ≠ slash ∧
      c ≠ closeBracket ∧ c ≠ openBracket := by
    intro c hc
    obtain ⟨n, hn, rfl⟩ := hexDigit_of_mem_hexEncode hc
    exact hexDigit_plain n hn
  refine ⟨⟨fun h => (hplain 0 h).1 rfl, fun h => (hplain _ h).2.1 rfl⟩,
    fun h => (hplain _ h).2.2.1 rfl, fun h => (hplain _ h).2.2.2.1 rfl,
    fun h => (hplain _ h).2.2.2.2.1 rfl, fun h => ?_⟩
  exact (hplain _ (List.mem_of_mem_head? h)).2.2.2.2.2 rfl

theorem Endpoint.family_of_addr {e : Endpoint} {addr : List UInt8} (h : e.addr = some addr) :
    ofLeBytes (addr.take 2) = e.family := by
  unfold Endpoint.addr at h
  split_ifs at h <;> cases h
  · rw [Endpoint.family, List.take_take]; rfl
  · rfl

/-- Keys and addresses in hexadecimal: an IPv6 address text is marked by a leading `:`, the
host `getnameinfo` gives is the socket address in hexadecimal, and the service `51820`. -/
def hexExtern : Extern where
  keyToHex k := hexEncode k.data
  keyFromHex t := (hexDecode t).bind fun l =>
    if h : l.length = WG_KEY_LEN then some ⟨l, h⟩ else none
  curve25519GeneratePublic k := k
  inetNtop family b := some (if family = AF_INET6 then colon :: hexEncode b else hexEncode b)
  inetPton family t := if family = AF_INET6 then hexDecode t.tail else hexDecode t
  getnameinfo addr := some (hexEncode addr, cstr "51820")
  getaddrinfo host _ := (hexDecode host).map fun a => ⟨ofLeBytes (a.take 2), a.length, a⟩

theorem hexExtern_inverse : hexExtern.Inverse where
  keyFromHex_keyToHex k := by
    simp only [hexExtern, hexDecode_hexEncode, Option.some_bind, Bytes.length_data, dite_true]
  inline_keyToHex k := (hexEncode_plain k.data).1
  ntop_inet b _ := by
    obtain ⟨hi, hc, hs, -⟩ := hexEncode_plain b
    have h4 : AF_INET ≠ AF_INET6 := by decide
    exact ⟨_, rfl, by simpa [hexExtern, h4] using hi, by simpa [hexExtern, h4] using hs,
      by simpa [hexExtern, h4] using hc, by simp [hexExtern, h4, hexDecode_hexEncode]⟩
  ntop_inet6 b _ := by
    obtain ⟨hi, -, hs, -⟩ := hexEncode_plain b
    refine ⟨_, rfl, by simpa [hexExtern] using hi.cons (by decide), ?_, by simp [hexExtern],
      by simp [hexExtern, hexDecode_hexEncode]⟩
    simp only [hexExtern, ↓reduceIte, List.mem_cons, not_or]
    exact ⟨by decide, hs⟩
  nameinfo e addr ha := by
    obtain ⟨hi, -, -, hb, hh⟩ := hexEncode_plain addr
    refine ⟨_, _, rfl, hi, inline_cstr_of_forall (by decide), by decide, by decide, hb, hh, ?_⟩
    simp only [hexExtern, hexDecode_hexEncode, Option.map_some', Endpoint.family_of_addr ha]

/-- A device with one peer that has every field a request carries, and allowed-ips of both
families. -/
def sampleDevice : Wgdevice :=
  { Wgdevice.zero with
    flags := { hasPrivateKey := true, hasListenPort := true, hasFwmark := true }
    privateKey := ⟨List.replicate 32 7, List.length_replicate 32 7⟩
    listenPort := 51820
    fwmark := 42
    peers := [{ Wgpeer.zero with
      flags := { hasPresharedKey := true, hasPersistentKeepaliveInterval := true }
      publicKey := ⟨List.replicate 32 9, List.length_replicate 32 9⟩
      presharedKey := ⟨List.replicate 32 1, List.length_replicate 32 1⟩
      endpoint := ⟨[2, 0, 202, 108, 10, 0, 0, 1] ++ List.replicate 20 0, by decide⟩
      persistentKeepaliveInterval := 25
      allowedips := [⟨2, ⟨[10, 0, 0, 0] ++ List.replicate 12 0, by decide⟩, 8⟩,
        ⟨10, ⟨[0xfd] ++ List.replicate 15 0, by decide⟩, 64⟩] }] }

theorem userspace_set_get_roundTrip_sample :
    hexExtern.Inverse ∧ (∀ p ∈ sampleDevice.peers, p.flags.removeMe = false) ∧
      (∀ p ∈ sampleDevice.peers, ∀ a ∈ p.allowedips, a.valid) ∧
      ∃ d, userspaceGetDevice hexExtern ⟨[], 0⟩ none (sampleDevice.name.chars ++ [0])
          ((userspaceSetDevice hexExtern sampleDevice none [] 0).2.dropLast ++
            cstr "errno=0\n\n") = (0, some d) ∧ SameDevice sampleDevice d :=
  have hr : ∀ p ∈ sampleDevice.peers, p.flags.removeMe = false := by decide
  have hv : ∀ p ∈ sampleDevice.peers, ∀ a ∈ p.allowedips, a.valid := by decide
  ⟨hexExtern_inverse, hr, hv,
    userspace_set_get_roundTrip hexExtern hexExtern_inverse sampleDevice hr hv [] 0 0⟩

end WireguardIpc

/-
`ipc_get_device` and `ipc_set_device`: the entry points, which hand a device to the
userspace implementation when `userspace_has_wireguard_interface` finds its socket, and to
the kernel otherwise.

The Linux kernel backends keep to "`0` or a negative error" and say when they answer
(`ipc_kernel_results`): the GET gives no answer only on a dump whose `coalesce_peers`
dereferences `NULL`, or when every pass it is given is interrupted, and the SET always
answers once its buffer holds a message header.  The userspace ones do not keep to it, in
two ways.  `userspace_get_device` sets `ret = ENETUNREACH` when an endpoint does not
resolve, and returns it positive.  And the two read the reply's `errno=` line differently:
`userspace_get_device` takes it through `NUM` and returns it negated, `userspace_set_device`
takes it with `%d` and returns it as it is, so the same reply gives one entry point `-n` and
the other `n`.  A device comes back exactly when the result is `0`
(`ipc_get_device_dev_iff_zero`), so a positive result comes with `*dev = NULL`, except on
OpenBSD when the kernel backend cannot open its socket: it returns before it writes `*dev`,
which keeps what the caller put there.
-/
import WireguardIpc.Netlink.Set
import WireguardIpc.Userspace.Set
import WireguardIpc.Openbsd.Get
import WireguardIpc.Openbsd.Set

namespace WireguardIpc

/-! ### Dispatch -/

/-- `ipc_get_device(dev, iface)`, given whether `userspace_has_wireguard_interface` finds a
socket for `iface`, and what each backend meets: the return value and `*dev` (`none` when the
kernel's retry loop is cut short by its list of attempts). -/
def ipcGetDevice (ext : Extern) (userspace : Bool) (sys : Sys) (openErrno : Option Nat)
    (iface reply : List UInt8) (attempts : List GetAttempt) : Option (Int × Option Wgdevice) :=
  if userspace then some (userspaceGetDevice ext sys openErrno iface reply)
  else kernelGetDevice attempts sys

/-- `ipc_set_device(dev)`, given whether `userspace_has_wireguard_interface` finds a socket
for the device, and what each backend meets: the return value (`none` when the kernel's send
loop is cut short by its fuel or its list of outcomes). -/
def ipcSetDevice (ext : Extern) (userspace : Bool) (dev : Wgdevice) (openErrno : Option Nat)
    (reply : List UInt8) (errno cap : Nat) (outs : List SendOutcome) (fuel : Nat) : Option Int :=
  if userspace then some (userspaceSetDevice ext dev openErrno reply errno).1
  else (kernelSetDevice cap openErrno outs dev fuel).map (·.2)

/-- `ipc_get_device(dev, iface)` on OpenBSD, `*dev` holding `device` on entry: the same
dispatch, the kernel backend being OpenBSD's. -/
def Openbsd.ipcGetDevice (ext : Extern) (userspace : Bool) (device : Option Wgdevice) (sys : Sys)
    (openErrno : Option Nat) (iface reply : List UInt8) (sockErrno : Option Nat)
    (ioctls : List Openbsd.GetIoctl) : Option (Int × Option Wgdevice) :=
  if userspace then some (userspaceGetDevice ext sys openErrno iface reply)
  else Openbsd.kernelGetDevice device sockErrno sys iface ioctls

/-- `ipc_set_device(dev)` on OpenBSD: the same dispatch, the kernel backend being OpenBSD's. -/
def Openbsd.ipcSetDevice (ext : Extern) (userspace : Bool) (dev : Wgdevice)
    (openErrno : Option Nat) (reply : List UInt8) (errno : Nat) (sockErrno : Option Nat)
    (callocOk : Bool) (ioctlErrno : Option Nat) : Option Int :=
  if userspace then some (userspaceSetDevice ext dev openErrno reply errno).1
  else (Openbsd.kernelSetDevice sockErrno callocOk ioctlErrno dev).map (·.1)

/-! ### Results that are not negative errors -/

/-- A reply whose first peer has an endpoint `getaddrinfo` cannot resolve: the read ends at
that line with `ENETUNREACH`, positive, and no device. -/
theorem userspaceGetDevice_unreachable (ext : Extern) (e : Nat) (iface key host service : List UInt8)
    (k : Key) (hk : ext.keyFromHex key = some k) (hr : ext.getaddrinfo host service = none)
    (hkey : Inline key) (hhost : Inline host) (hservice : Inline service)
    (hh : host.head? ≠ some openBracket) (hs : service ≠ []) (hsc : colon ∉ service) :
    userspaceGetDevice ext ⟨[], e⟩ none iface
        (request [(cstr "public_key", key), (cstr "endpoint", host ++ colon :: service)]) =
      ((ENETUNREACH : Int), none) := by
  have hw₁ : Writable (cstr "public_key", key) :=
    ⟨show equalsSign ∉ cstr "public_key" by decide, inline_cstr_of_forall (by decide), hkey⟩
  have hw₂ : Writable (cstr "endpoint", host ++ colon :: service) :=
    ⟨show equalsSign ∉ cstr "endpoint" by decide, inline_cstr_of_forall (by decide),
      hhost.append (hservice.cons (by decide))⟩
  have hw : ∀ kv ∈ [(cstr "public_key", key), (cstr "endpoint", host ++ colon :: service)],
      Writable kv := by
    simp only [List.mem_cons, List.mem_singleton, List.not_mem_nil, or_false]
    rintro _ (rfl | rfl) <;> assumption
  have hlines := getlines_request _ hw
  have hres : resolveEndpoint ext (host ++ colon :: service) = .unreachable := by
    simp only [resolveEndpoint, endpointHostService_plain hh hs hsc, hr]
  simp only [userspaceGetDevice, Sys.calloc, hlines, List.map_cons, List.map_nil, List.cons_append,
    List.nil_append, getLoop, parseLine_keyValueLine hw₁, parseLine_keyValueLine hw₂]
  simp only [getLine, show GetKey.ofBytes (cstr "public_key") = .publicKey by decide,
    show GetKey.ofBytes (cstr "endpoint") = .endpoint by decide, LineOutcome.calloc, Sys.calloc,
    hk, LineOutcome.ofStore, GetState.modifyPeer, afterIndex, hres, Bool.not_true,
    Bool.false_eq_true, ↓reduceIte]
  exact if_pos (by decide)

/-- The reply `errno=n`, for `n` within `NUM(0x7fffffff)`: the read returns `-n`, and the
device only when `n` is `0`. -/
theorem userspaceGetDevice_errno (ext : Extern) (e : Nat) (iface : List UInt8) {n : Nat}
    (hn : n ≤ 0x7fffffff) :
    userspaceGetDevice ext ⟨[], e⟩ none iface (request [(cstr "errno", decimal n)]) =
      if n = 0 then (0, some { Wgdevice.zero with name := IfName.ofCString iface })
      else (-(n : Int), none) := by
  have hw : Writable (cstr "errno", decimal n) :=
    ⟨show equalsSign ∉ cstr "errno" by decide, inline_cstr_of_forall (by decide),
      inline_of_digits (isdigit_decimal n)⟩
  have hlines := getlines_request [(cstr "errno", decimal n)] (by simpa using hw)
  simp only [userspaceGetDevice, Sys.calloc, hlines, List.map_cons, List.map_nil, List.cons_append,
    List.nil_append, getLoop, parseLine_keyValueLine hw, show parseLine [newline] = .blank by decide,
    getLine, show GetKey.ofBytes (cstr "errno") = .errno by decide, NUM_decimal hn (by decide),
    LineOutcome.ofStore, Bool.not_true, Bool.false_eq_true, ↓reduceIte]
  split_ifs <;> first | rfl | omega

/-- **The entry points can return a positive value, and read one reply with opposite
signs.**  On a userspace reply `errno=n`, for every `n` from `1` to `0x7fffffff`,
`ipc_get_device` returns `-n` and `ipc_set_device` returns `n`; and `ipc_get_device`
returns `ENETUNREACH` on a reply whose first endpoint does not resolve. -/
theorem ipc_errno_reply_signs (ext : Extern) (n : Nat) (hn : 0 < n) (hmax : n ≤ 0x7fffffff)
    (key host service : List UInt8) (k : Key) (hk : ext.keyFromHex key = some k)
    (hr : ext.getaddrinfo host service = none) (hkey : Inline key) (hhost : Inline host)
    (hservice : Inline service) (hh : host.head? ≠ some openBracket) (hs : service ≠ [])
    (hsc : colon ∉ service) (iface : List UInt8) (dev : Wgdevice) (attempts : List GetAttempt)
    (errno cap : Nat) (outs : List SendOutcome) (fuel : Nat) :
    ipcGetDevice ext true ⟨[], 0⟩ none iface (request [(cstr "errno", decimal n)]) attempts =
        some (-(n : Int), none) ∧
      ipcSetDevice ext true dev none (request [(cstr "errno", decimal n)]) errno cap outs fuel =
        some (n : Int) ∧
      ipcGetDevice ext true ⟨[], 0⟩ none iface
          (request [(cstr "public_key", key), (cstr "endpoint", host ++ colon :: service)]) attempts =
        some ((ENETUNREACH : Int), none) := by
  refine ⟨?_, ?_, ?_⟩
  · rw [ipcGetDevice, if_pos rfl, userspaceGetDevice_errno ext 0 iface hmax, if_neg (by omega)]
  · rw [ipcSetDevice, if_pos rfl, userspaceSetDevice_errno ext dev errno (by omega)]
  · rw [ipcGetDevice, if_pos rfl,
      userspaceGetDevice_unreachable ext 0 iface _ _ _ k hk hr hkey hhost hservice hh hs hsc]

/-- External functions under which every key text decodes, to the zero key, and no
endpoint resolves. -/
def unresolvingExtern : Extern :=
  ⟨fun _ => [], fun _ => some (Bytes.zero 32), id, fun _ _ => none, fun _ _ => none,
    fun _ => none, fun _ _ => none⟩

theorem ipc_errno_reply_signs_five :
    (0 < 5 ∧ 5 ≤ 0x7fffffff ∧
      unresolvingExtern.keyFromHex (cstr "k") = some (Bytes.zero 32) ∧
      unresolvingExtern.getaddrinfo (cstr "wg.invalid") (cstr "51820") = none ∧
      Inline (cstr "k") ∧ Inline (cstr "wg.invalid") ∧ Inline (cstr "51820") ∧
      (cstr "wg.invalid").head? ≠ some openBracket ∧ cstr "51820" ≠ [] ∧ colon ∉ cstr "51820") ∧
    ipcGetDevice unresolvingExtern true ⟨[], 0⟩ none [] (request [(cstr "errno", decimal 5)]) [] =
        some (-5, none) ∧
      ipcSetDevice unresolvingExtern true Wgdevice.zero none (request [(cstr "errno", decimal 5)])
          0 0 [] 0 = some 5 ∧
      ipcGetDevice unresolvingExtern true ⟨[], 0⟩ none []
          (request [(cstr "public_key", cstr "k"),
            (cstr "endpoint", cstr "wg.invalid" ++ colon :: cstr "51820")]) [] =
        some ((ENETUNREACH : Int), none) :=
  ⟨⟨by decide, by decide, rfl, rfl, inline_cstr_of_forall (by decide), inline_cstr_of_forall (by decide),
      inline_cstr_of_forall (by decide), by decide, by decide, by decide⟩,
    ipc_errno_reply_signs unresolvingExtern 5 (by decide) (by decide) _ _ _ _ rfl rfl
      (inline_cstr_of_forall (by decide)) (inline_cstr_of_forall (by decide)) (inline_cstr_of_forall (by decide)) (by decide)
      (by decide) (by decide) [] Wgdevice.zero [] 0 0 [] 0⟩

/-! ### Results of the kernel backends -/

/-- **The kernel backends keep to "`0` or a negative error", and say when they answer.**
When the kernel handles the call, as long as each failed `mnlg_socket_open` sets a non-zero
`errno`:

  * `ipc_get_device` returns `0` with a device or a negative error with `*dev = NULL`, and
    `-EINTR` only when `mnlg_socket_open` fails with it, since an interrupted dump is tried
    again;
  * it gives no answer only when a pass meets the `NULL` that `coalesce_peers` dereferences,
    or when every pass it is given is interrupted and it would try again;
  * `ipc_set_device` never returns a positive value, and answers whatever each send meets,
    once the buffer holds a message header and the fuel covers the peers to send. -/
theorem ipc_kernel_results (ext : Extern) (sys : Sys) (openErrno : Option Nat)
    (iface reply : List UInt8) (attempts : List GetAttempt)
    (hattempts : ∀ a ∈ attempts, a.openErrno ≠ some 0) (dev : Wgdevice)
    (errno cap : Nat) (outs : List SendOutcome) (fuel : Nat) :
    (∀ ret d, ipcGetDevice ext false sys openErrno iface reply attempts = some (ret, d) →
      (ret = 0 ∧ d.isSome ∨ ret < 0 ∧ d = none) ∧
        (ret = -(EINTR : Int) → ∃ a ∈ attempts, a.openErrno = some EINTR)) ∧
    (ipcGetDevice ext false sys openErrno iface reply attempts = none →
      (∃ a ∈ attempts, a.Crashes) ∨ ∀ a ∈ attempts, a.Interrupted) ∧
    (∀ ret, ipcSetDevice ext false dev openErrno reply errno cap outs fuel = some ret → ret ≤ 0) ∧
    (capacityBound dev.name ≤ cap → pendingAll dev.peers < fuel →
      (ipcSetDevice ext false dev openErrno reply errno cap outs fuel).isSome) := by
  refine ⟨fun ret d h => kernelGetDevice_result attempts sys hattempts h, kernelGetDevice_eq_none,
    fun ret h => ?_, fun hcap hfuel => ?_⟩
  · simp only [ipcSetDevice, Bool.false_eq_true, if_false, kernelSetDevice,
      Option.map_eq_some'] at h
    obtain ⟨⟨msgs, ret'⟩, hrun, rfl⟩ := h
    split at hrun
    · obtain ⟨-, rfl⟩ := Prod.mk.inj (Option.some.inj hrun)
      omega
    · exact setLoop_result fuel outs [] [] hrun
  · simpa [ipcSetDevice] using kernelSetDevice_isSome hcap openErrno outs hfuel

/-- A GET whose first dump is interrupted and retried, and a SET of `twoPeerDevice`, split
over two messages, whose second send fails. -/
theorem ipc_kernel_results_retry :
    (∀ a ∈ [(⟨none, none, [.error EINTR]⟩ : GetAttempt), ⟨none, none, [.done]⟩],
        a.openErrno ≠ some 0) ∧
    (∀ ret d, ipcGetDevice unresolvingExtern false ⟨[], 0⟩ none [] []
        [⟨none, none, [.error EINTR]⟩, ⟨none, none, [.done]⟩] = some (ret, d) →
      (ret = 0 ∧ d.isSome ∨ ret < 0 ∧ d = none) ∧
        (ret = -(EINTR : Int) → ∃ a ∈ [(⟨none, none, [.error EINTR]⟩ : GetAttempt),
          ⟨none, none, [.done]⟩], a.openErrno = some EINTR)) ∧
    (ipcGetDevice unresolvingExtern false ⟨[], 0⟩ none [] []
        [⟨none, none, [.error EINTR]⟩, ⟨none, none, [.done]⟩] = none →
      (∃ a ∈ [(⟨none, none, [.error EINTR]⟩ : GetAttempt), ⟨none, none, [.done]⟩], a.Crashes) ∨
        ∀ a ∈ [(⟨none, none, [.error EINTR]⟩ : GetAttempt), ⟨none, none, [.done]⟩],
          a.Interrupted) ∧
    (∀ ret, ipcSetDevice unresolvingExtern false twoPeerDevice none [] 0 260
        [.acked, .sendFails EINTR] 8 = some ret → ret ≤ 0) ∧
    (capacityBound twoPeerDevice.name ≤ 260 → pendingAll twoPeerDevice.peers < 8 →
      (ipcSetDevice unresolvingExtern false twoPeerDevice none [] 0 260
        [.acked, .sendFails EINTR] 8).isSome) := by
  have h : ∀ a ∈ [(⟨none, none, [.error EINTR]⟩ : GetAttempt), ⟨none, none, [.done]⟩],
      a.openErrno ≠ some 0 := by decide
  exact ⟨h, ipc_kernel_results _ _ _ _ _ _ h twoPeerDevice 0 260 [.acked, .sendFails EINTR] 8⟩

/-! ### A device exactly when the result is `0` -/

/-- What a backend's result says when it is `0`, with a device, or not `0`, without one. -/
theorem isSome_iff_of_result {ret : Int} {d : Option Wgdevice}
    (h : ret = 0 ∧ d.isSome ∨ ret ≠ 0 ∧ d = none) : d.isSome ↔ ret = 0 := by
  rcases h with ⟨rfl, hd⟩ | ⟨hr, rfl⟩ <;> simp_all

theorem userspaceGetDevice_isSome_iff (ext : Extern) (sys : Sys) {openErrno : Option Nat}
    (hopen : openErrno ≠ some 0) (iface reply : List UInt8) {ret : Int} {d : Option Wgdevice}
    (h : userspaceGetDevice ext sys openErrno iface reply = (ret, d)) : d.isSome ↔ ret = 0 := by
  have hres := userspaceGetDevice_result ext sys openErrno iface reply hopen
  rw [h] at hres
  apply isSome_iff_of_result
  rcases hres with ⟨d', hd'⟩ | ⟨hd, hr | hr⟩
  · obtain ⟨rfl, rfl⟩ := Prod.mk.inj hd'
    exact .inl ⟨rfl, rfl⟩
  · exact .inr ⟨ne_of_lt hr, hd⟩
  · exact .inr ⟨by rw [show ret = ENETUNREACH from hr]; decide, hd⟩

/-- **`ipc_get_device` hands back a device exactly when it returns `0`**, on Linux whichever
backend serves the interface, and on OpenBSD except where the kernel backend cannot open its
socket: it returns `-errno` there before it writes `*dev`, which keeps what the caller put in
it.  This holds as long as each failed open and `SIOCGWG` sets a non-zero `errno`.  A caller
that tests the result for `< 0` alone can still be handed `NULL`: the userspace backend
returns `ENETUNREACH` positive. -/
theorem ipc_get_device_dev_iff_zero (ext : Extern) (userspace : Bool) (sys : Sys)
    (openErrno : Option Nat) (hopen : openErrno ≠ some 0) (iface reply : List UInt8)
    (attempts : List GetAttempt) (hattempts : ∀ a ∈ attempts, a.openErrno ≠ some 0)
    (sockErrno : Option Nat) (ioctls : List Openbsd.GetIoctl)
    (hfail : ∀ e, Openbsd.GetIoctl.fail e ∈ ioctls → e ≠ 0) :
    (∀ ret d, ipcGetDevice ext userspace sys openErrno iface reply attempts = some (ret, d) →
      (d.isSome ↔ ret = 0)) ∧
    (∀ device ret d, Openbsd.ipcGetDevice ext userspace device sys openErrno iface reply sockErrno
        ioctls = some (ret, d) →
      (d.isSome ↔ ret = 0) ∨
        userspace = false ∧ ∃ e : Nat, sockErrno = some e ∧ ret = -(e : Int) ∧ d = device) := by
  constructor
  · intro ret d h
    cases userspace
    · -- the Linux kernel backend
      apply isSome_iff_of_result
      exact (kernelGetDevice_result attempts sys hattempts h).1.imp_right
        fun h' => ⟨ne_of_lt h'.1, h'.2⟩
    · exact userspaceGetDevice_isSome_iff ext sys hopen iface reply (Option.some.inj h)
  · intro device ret d h
    cases userspace
    · -- the OpenBSD kernel backend
      rcases Openbsd.kernelGetDevice_error_origin device sockErrno sys iface ioctls h with
        h0 | ⟨e, rfl, ⟨hs, hd⟩ | ⟨hd, he⟩⟩
      · exact .inl (isSome_iff_of_result (.inl h0))
      · exact .inr ⟨rfl, e, hs, rfl, hd⟩
      · have := Openbsd.pos_of_ioctl_error hfail he
        exact .inl (isSome_iff_of_result (.inr ⟨by omega, hd⟩))
    · exact .inl (userspaceGetDevice_isSome_iff ext sys hopen iface reply (Option.some.inj h))

/-- A Linux dump that ends at once, and an OpenBSD interface whose two `SIOCGWG`s answer
with one peer and one allowed-ip. -/
theorem ipc_get_device_dev_iff_zero_kernel :
    (none : Option Nat) ≠ some 0 ∧
      (∀ a ∈ [(⟨none, none, [.done]⟩ : GetAttempt)], a.openErrno ≠ some 0) ∧
      (∀ e, Openbsd.GetIoctl.fail e ∈
        [Openbsd.GetIoctl.ok 248 Openbsd.onePeerBuffer, .ok 248 Openbsd.onePeerBuffer] → e ≠ 0) ∧
      (∀ ret d, ipcGetDevice unresolvingExtern false ⟨[], 0⟩ none [] [] [⟨none, none, [.done]⟩] =
        some (ret, d) → (d.isSome ↔ ret = 0)) ∧
      (∀ device ret d, Openbsd.ipcGetDevice unresolvingExtern false device ⟨[], 0⟩ none [] [] none
          [.ok 248 Openbsd.onePeerBuffer, .ok 248 Openbsd.onePeerBuffer] = some (ret, d) →
        (d.isSome ↔ ret = 0) ∨
          false = false ∧ ∃ e : Nat, none = some e ∧ ret = -(e : Int) ∧ d = device) := by
  have hnone : (none : Option Nat) ≠ some 0 := by decide
  have hattempts : ∀ a ∈ [(⟨none, none, [.done]⟩ : GetAttempt)], a.openErrno ≠ some 0 := by decide
  have hfail : ∀ e, Openbsd.GetIoctl.fail e ∈
      [Openbsd.GetIoctl.ok 248 Openbsd.onePeerBuffer, .ok 248 Openbsd.onePeerBuffer] → e ≠ 0 := by
    simp
  exact ⟨hnone, hattempts, hfail,
    ipc_get_device_dev_iff_zero unresolvingExtern false ⟨[], 0⟩ none hnone [] [] _ hattempts
      none _ hfail⟩

end WireguardIpc

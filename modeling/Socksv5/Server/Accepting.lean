import Socksv5.Server.State

/-!
# Accepts that fail

An accept fails at one of four calls.  When it fails before the new object is
allocated, the server is left as it was.  When `selector_register` refuses the
descriptor, the object is already in its list, and `finally` destroys what the
key of the listening socket carries instead of it, which is nothing.
-/

namespace Socksv5

open Support

/-- The two services that the server listens for. -/
inductive Service
  | socksv5
  | admin
deriving DecidableEq, Repr

namespace Service

/-- The callback of the listening sockets of a service. -/
def passiveAccept : Service → ℕ → AcceptSys → SelectorKey → Server →
    Except Fault Server
  | socksv5 => socksv5PassiveAccept
  | admin => adminPassiveAccept

/-- The callbacks of the connections of a service. -/
def activeHandler : Service → FdHandler
  | socksv5 => .socksv5Active
  | admin => .adminActive

/-- The service takes one more connection. -/
def Takes : Service → Server → Prop
  | socksv5, srv =>
      srv.metrics.getConcurrentConnections < maxConcurrentConnections
  | admin, _ => True

end Service

/-- The calls at which an accept can fail. -/
inductive AcceptFailure
  | accept
  | nio
  | alloc
  | register
deriving DecidableEq, Repr

/-- The accept fails at the call. -/
def AcceptSys.FailsAt (sys : AcceptSys) (service : Service) (s : FdSelector) :
    AcceptFailure → Prop
  | .accept => sys.accept = none
  | .nio => sys.accept ≠ none ∧ sys.nio = false
  | .alloc => sys.accept ≠ none ∧ sys.nio = true ∧ sys.address = none
  | .register => sys.nio = true ∧ sys.address ≠ none ∧
      ∃ fd ret s', sys.accept = some fd ∧
        selectorRegister s fd (some service.activeHandler) .read sys.address
          sys.realloc = .ok (ret, s') ∧ ret ≠ .success

/-- The allocation that the accept makes is of an address not in use. -/
def AcceptSys.Fresh (sys : AcceptSys) (srv : Server) : Prop :=
  ∀ a, sys.address = some a →
    srv.sessions.heap a = none ∧ srv.admins.heap a = none

/-- Nothing has changed, but that the new descriptor has been closed. -/
structure Server.Untouched (srv srv' : Server) (clientSock : Option ℕ) :
    Prop where
  selector : srv'.selector = srv.selector
  sessions : srv'.sessions = srv.sessions
  admins : srv'.admins = srv.admins
  metrics : srv'.metrics = srv.metrics
  closed : srv'.closed = srv.closed ++ clientSock.toList.map fun fd => (fd : ℤ)

/-! ## Failing before the allocation -/

/-- An accept that does not get to `selector_register` changes nothing. -/
theorem passiveAccept_untouched (service : Service) {sys : AcceptSys}
    {failure : AcceptFailure} (fuel : ℕ) (key : SelectorKey) {srv : Server}
    (htakes : service.Takes srv)
    (hfails : sys.FailsAt service srv.selector failure)
    (hearly : failure ≠ .register) :
    ∃ srv', service.passiveAccept fuel sys key srv = .ok srv' ∧
      srv.Untouched srv' sys.accept := by
  obtain ⟨accept, nio, address, realloc⟩ := sys
  cases failure with
  | accept =>
      have haccept : accept = none := hfails
      subst haccept
      refine ⟨srv, ?_, rfl, rfl, rfl, rfl, by simp⟩
      cases service with
      | socksv5 => exact if_pos htakes
      | admin => rfl
  | nio =>
      obtain ⟨haccept, hnio⟩ := hfails
      obtain ⟨fd, rfl⟩ := Option.ne_none_iff_exists'.mp haccept
      have hnio : nio = false := hnio
      subst hnio
      refine ⟨srv.close fd, ?_, rfl, rfl, rfl, rfl, rfl⟩
      cases service with
      | socksv5 => exact if_pos htakes
      | admin => rfl
  | alloc =>
      obtain ⟨haccept, hnio, haddress⟩ := hfails
      obtain ⟨fd, rfl⟩ := Option.ne_none_iff_exists'.mp haccept
      have hnio : nio = true := hnio
      have haddress : address = none := haddress
      subst hnio haddress
      refine ⟨srv.close fd, ?_, rfl, rfl, rfl, rfl, rfl⟩
      cases service with
      | socksv5 => exact if_pos htakes
      | admin => rfl
  | register => exact absurd rfl hearly

/-! ## Failing at the registration -/

/-- A session that has been allocated is in the list. -/
theorem SessionList.newSocksv5_allocated {fuel a : ℕ} {clientFd : ℤ}
    {p : Option ℕ} {l l' : SessionList}
    (h : l.newSocksv5 fuel clientFd (some a) = .ok (p, l')) :
    p = some a ∧ l'.heap a ≠ none := by
  cases hfirst : l.first with
  | none =>
      simp only [newSocksv5, hfirst] at h
      cases h
      exact ⟨rfl, by simp [put]⟩
  | some first =>
      simp only [newSocksv5, hfirst] at h
      obtain ⟨aux, -, h⟩ := bind_eq_ok.mp h
      obtain ⟨last, -, h⟩ := bind_eq_ok.mp h
      cases h
      exact ⟨rfl, by simp [put]⟩

/-- What `new_admin` returns is what it has allocated. -/
theorem newAdmin_address {fuel : ℕ} {fd : ℤ} {address p : Option ℕ}
    {l l' : AdminList} (h : newAdmin fuel fd address l = .ok (p, l')) :
    p = address := by
  cases address with
  | none =>
      cases h
      rfl
  | some a =>
      cases hfirst : l.first with
      | none =>
          simp only [newAdmin, hfirst] at h
          cases h
          rfl
      | some first =>
          simp only [newAdmin, hfirst] at h
          obtain ⟨⟨b, j⟩, -, h⟩ := bind_eq_ok.mp h
          obtain ⟨node, -, h⟩ := bind_eq_ok.mp h
          cases h
          rfl

/-- `destroy_admin` does not return from a key that carries no administrator. -/
theorem destroyAdmin_ne_ok {fuel : ℕ} {key : SelectorKey} {srv srv' : Server}
    (hkey : key.data = none) : destroyAdmin fuel key srv ≠ .ok srv' := by
  intro h
  obtain ⟨⟨ret, s⟩, -, h⟩ := bind_eq_ok.mp h
  by_cases hret : ret = .success
  · simp [hret, hkey] at h
  · simp [hret] at h

/-- An accept that `selector_register` refuses leaves the session in the list,
or ends the process. -/
theorem not_untouched_of_refused {service : Service} {sys : AcceptSys}
    {fuel : ℕ} {key : SelectorKey} {srv srv' : Server}
    (hkey : key.data = none) (htakes : service.Takes srv)
    (hfresh : sys.Fresh srv)
    (hfails : sys.FailsAt service srv.selector .register)
    (hcall : service.passiveAccept fuel sys key srv = .ok srv') :
    ¬ srv.Untouched srv' sys.accept := by
  obtain ⟨hnio, haddress, fd, ret, s', haccept, hregister, hret⟩ := hfails
  obtain ⟨a, haddress⟩ := Option.ne_none_iff_exists'.mp haddress
  intro huntouched
  cases service with
  | socksv5 =>
      have hlt : srv.metrics.getConcurrentConnections <
        maxConcurrentConnections := htakes
      simp only [Service.passiveAccept, socksv5PassiveAccept, hlt, haccept,
        hnio, haddress, if_true] at hcall
      obtain ⟨⟨p, l⟩, hnew, hcall⟩ := bind_eq_ok.mp hcall
      obtain ⟨rfl, hallocated⟩ := SessionList.newSocksv5_allocated hnew
      rw [if_neg (by simp)] at hcall
      rw [haddress] at hregister
      have hregister' : selectorRegister srv.selector fd
          (some .socksv5Active) .read (some a) sys.realloc =
            .ok (ret, s') := hregister
      simp only [hregister', ok_bind, ne_eq, hret, not_false_eq_true, if_true,
        socksv5AcceptFinally, reduceCtorEq, hkey, Server.close,
        SessionList.socksv5Destroy] at hcall
      cases hcall
      have hsessions : l = srv.sessions := huntouched.sessions
      exact hallocated (hsessions ▸ (hfresh a haddress).1)
  | admin =>
      simp only [Service.passiveAccept, adminPassiveAccept, haccept, hnio,
        haddress] at hcall
      obtain ⟨⟨p, l⟩, hnew, hcall⟩ := bind_eq_ok.mp hcall
      have hp := newAdmin_address hnew
      subst hp
      rw [if_neg (by simp)] at hcall
      rw [haddress] at hregister
      have hregister' : selectorRegister srv.selector fd (some .adminActive)
          .read (some a) sys.realloc = .ok (ret, s') := hregister
      simp only [hregister', ok_bind, ne_eq, hret, not_false_eq_true, if_true,
        adminAcceptFinally, reduceCtorEq] at hcall
      exact destroyAdmin_ne_ok hkey hcall

/-! ## Accepts that change nothing -/

/-- An accept that fails changes nothing, unless it is `selector_register` that
refuses the descriptor. -/
theorem failedAccept_untouched_iff {service : Service} {sys : AcceptSys}
    {key : SelectorKey} {srv : Server} {failure : AcceptFailure}
    (hkey : key.data = none) (htakes : service.Takes srv)
    (hfresh : sys.Fresh srv)
    (hfails : sys.FailsAt service srv.selector failure) :
    (∃ fuel srv', service.passiveAccept fuel sys key srv = .ok srv' ∧
      srv.Untouched srv' sys.accept) ↔ failure ≠ .register := by
  constructor
  · rintro ⟨fuel, srv', hcall, huntouched⟩ rfl
    exact not_untouched_of_refused hkey htakes hfresh hfails hcall huntouched
  · intro hearly
    obtain ⟨srv', hcall⟩ :=
      passiveAccept_untouched service 0 key htakes hfails hearly
    exact ⟨0, srv', hcall⟩

/-- The socket of an administrator cannot be set to not block: it is closed, and
nothing else changes. -/
theorem failedAccept_untouched_of_blocking : ∃ srv : Server, srv.Starts ∧
    ∃ fuel srv', Service.admin.passiveAccept fuel
        ⟨some 5, false, some 0, true⟩ ⟨4, none⟩ srv = .ok srv' ∧
      srv.Untouched srv' (some 5) := by
  obtain ⟨srv, hstarts, -, -, hsrv⟩ := exists_starts
  have hfresh : AcceptSys.Fresh ⟨some 5, false, some 0, true⟩ srv := by
    intro a _
    rw [hsrv]
    exact ⟨rfl, rfl⟩
  have hfails : AcceptSys.FailsAt ⟨some 5, false, some 0, true⟩ .admin srv.selector
      .nio := ⟨by simp, rfl⟩
  have htakes : Service.admin.Takes srv := trivial
  have hnio : AcceptFailure.nio ≠ .register := by decide
  exact ⟨srv, hstarts, (failedAccept_untouched_iff rfl htakes hfresh hfails).mpr hnio⟩

/-- The number of the new descriptor is past the table: the session stays in
the list, and the administrator ends the process. -/
theorem not_untouched_past_table : ∃ srv : Server, srv.Starts ∧
    ∀ service : Service,
      AcceptSys.FailsAt ⟨some 1024, true, some 0, true⟩ service srv.selector
          .register ∧
        ¬ ∃ fuel srv', service.passiveAccept fuel
          ⟨some 1024, true, some 0, true⟩
          ⟨if service = .admin then 4 else 3, none⟩ srv = .ok srv' ∧
          srv.Untouched srv' (some 1024) := by
  obtain ⟨srv, hstarts, -, -, hsrv⟩ := exists_starts
  refine ⟨srv, hstarts, ?_⟩
  intro service
  have hfails : AcceptSys.FailsAt ⟨some 1024, true, some 0, true⟩ service
      srv.selector .register :=
    ⟨rfl, by simp, 1024, .iargs, srv.selector, rfl, rfl, by simp⟩
  refine ⟨hfails, ?_⟩
  rintro ⟨fuel, srv', hcall, huntouched⟩
  refine not_untouched_of_refused rfl ?_ ?_ hfails hcall huntouched
  · rw [hsrv]
    cases service <;> simp [Service.Takes, Metrics.getConcurrentConnections,
      maxConcurrentConnections]
  · intro a _
    rw [hsrv]
    exact ⟨rfl, rfl⟩

end Socksv5

import Socksv5.Session.Traffic

/-!
# The client's descriptor

Whatever happens, the client's descriptor stays registered as long as the
session lives, and the origin's is another one.
-/

namespace Socksv5

open Support

/-- The client's descriptor is registered, and the origin's is another one. -/
structure Seated (w : World) : Prop where
  client : w.selector.Registered w.session.clientFd
  distinct : w.session.originFd ≠ w.session.clientFd

namespace Seated

variable {w w' : World}

theorem nonneg (hw : Seated w) : 0 ≤ w.session.clientFd := hw.client.nonneg

theorem of_quiet (hw : Seated w) (h : Quiet w w') : Seated w' where
  client := by
    rw [h.clientFd, h.registered]
    exact hw.client
  distinct := by
    rw [h.clientFd, h.originFd]
    exact hw.distinct

theorem of_changesInterest {fd : ℤ} {s : FdSelector} {ret : SelectorStatus}
    {change : FdInterest → Option FdInterest} (hw : Seated w)
    (h : ChangesInterest w.selector fd change ret s)
    (hclient : w'.session.clientFd = w.session.clientFd)
    (horigin : w'.session.originFd = w.session.originFd)
    (hselector : w'.selector = s) : Seated w' where
  client := by
    rw [hselector, hclient, h.registered_iff]
    exact hw.client
  distinct := by
    rw [hclient, horigin]
    exact hw.distinct

end Seated

theorem Attempted.seated {a : Attempt} {realloc : Bool} {fd : ℤ} {w w' : World}
    {ret : GlobalState} (h : Attempted a realloc fd w ret w')
    (hw : Seated w) (hfresh : ∀ n ∈ a.socket, (n : ℤ) ≠ w.session.clientFd) :
    Seated w' := by
  cases h with
  | noSocket _ hs =>
      refine ⟨(hs.registered_iff _).mpr hw.client, ?_⟩
      have := hw.nonneg
      change -1 ≠ w.session.clientFd
      omega
  | noNio hsocket _ hs =>
      exact ⟨(hs.registered_iff _).mpr hw.client, hfresh _ hsocket⟩
  | refused hsocket _ _ _ hs =>
      exact ⟨(hs.registered_iff _).mpr hw.client, hfresh _ hsocket⟩
  | connected hsocket => exact ⟨hw.client, hfresh _ hsocket⟩
  | @inProgress n _ _ _ s hsocket _ _ _ hregister =>
      refine ⟨?_, hfresh _ hsocket⟩
      change s.interest? w.session.clientFd ≠ none
      rcases selectorRegister_cases hregister with ⟨-, hs, -⟩ |
        ⟨-, -, -, hs, -⟩
      · rw [hs]
        exact hw.client
      · rw [hs, Function.update_of_ne (Ne.symm (hfresh _ hsocket))]
        exact hw.client

theorem Connects.seated {sys : Sys} {fd : ℤ} {w w' : World} {ret : GlobalState}
    (h : Connects sys fd w ret w') (hw : Seated w)
    (hfresh : ∀ n ∈ (sys.attempts 0).socket, (n : ℤ) ≠ w.session.clientFd) :
    Seated w' := by
  cases h with
  | already => exact hw
  | address _ _ h => exact h.seated hw hfresh
  | noThread => exact hw
  | name _ _ _ hs => exact hw.of_changesInterest hs rfl rfl rfl

theorem Resolves.seated {sys : Sys} {fd : ℤ} {k : ℕ} {addrs : List SockAddr}
    {w w' : World} {ret : GlobalState} (h : Resolves sys fd k addrs w ret w')
    (hw : Seated w) (hfresh : ∀ k, ∀ n ∈ (sys.attempts k).socket,
      (n : ℤ) ≠ w.session.clientFd) : Seated w' := by
  induction h with
  | exhausted h =>
      cases h with
      | failed _ hs => exact hw.of_changesInterest hs rfl rfl rfl
      | answers hs => exact hw.of_changesInterest hs rfl rfl rfl
  | @settles k addr rest w w' h =>
      have hseated := h.seated ⟨hw.client, hw.distinct⟩ (hfresh k)
      exact ⟨hseated.client, hseated.distinct⟩
  | @breaks k addr rest w w' h =>
      exact h.seated ⟨hw.client, hw.distinct⟩ (hfresh k)
  | @goesOn k addr rest w w₁ w' ret h _ ih =>
      refine ih (h.seated ⟨hw.client, hw.distinct⟩ (hfresh k)) ?_
      intro j n hn
      rw [h.silent.clientFd]
      exact hfresh j n hn

/-- A callback leaves the session seated. -/
theorem onReady_seated {sys : Sys} {fd : ℤ} {s ret : GlobalState} {r : Ready}
    {f : Callback} {w w₁ : World} (hw : Seated w) (hkernel : w.Kernel sys)
    (hf : onReady sys fd s r = some f)
    (h : f (w.delivered r fd) = .ok (ret, w₁)) :
    Seated w₁ ∧ w₁.session.clientFd = w.session.clientFd := by
  have hseated : Seated (w.delivered r fd) := by
    cases r <;> exact ⟨hw.client, hw.distinct⟩
  have hclient : (w.delivered r fd).session.clientFd = w.session.clientFd := by
    cases r <;> rfl
  by_cases hr : r = .block
  · subst hr
    cases s <;> cases hf
    have hspec := connectOriginBlock_spec h
    exact ⟨hspec.seated hseated fun k n hn => (hkernel.fresh k n hn).2,
      hspec.silent.clientFd⟩
  · have hquiet := onReady_quiet hf hr h
    exact ⟨hseated.of_quiet hquiet, hquiet.clientFd.trans hclient⟩

/-- So does what follows, until the session ends. -/
theorem Outcome.seated {sys : Sys} {fd : ℤ} {s ret : GlobalState}
    {via : List GlobalState} {w₁ w₂ : World}
    (hout : Outcome sys fd s ret w₁ via w₂) (hw : Seated w₁)
    (hfresh : ∀ n ∈ (sys.attempts 0).socket, (n : ℤ) ≠ w₁.session.clientFd) :
    w₂.session.originFd ≠ w₂.session.clientFd ∧
      (w₂.destroyed = false → Seated w₂) := by
  have of_seated (hw₂ : Seated w₂) :
      w₂.session.originFd ≠ w₂.session.clientFd ∧
        (w₂.destroyed = false → Seated w₂) := ⟨hw₂.distinct, fun _ => hw₂⟩
  cases hout with
  | stays => exact of_seated hw
  | enters => exact of_seated (hw.of_quiet (arrived_quiet _ _))
  | connects _ hinit =>
      exact of_seated ((connectOriginInit_spec hinit).seated hw hfresh)
  | redirected _ hinit =>
      exact of_seated ((connectOriginInit_spec hinit).seated hw hfresh)
  | ends _ hdone =>
      rw [socksv5Done_session hdone]
      refine ⟨hw.distinct, fun hlive => ?_⟩
      obtain ⟨w₃, -, hdone⟩ := bind_eq_ok.mp hdone
      obtain ⟨w₄, -, hdone⟩ := bind_eq_ok.mp hdone
      cases hdone
      cases hlive

/-- Until the session is destroyed, it is seated. -/
theorem seated_inductive (company : Company) : Inductive company Anything
    AnyEvent fun _ _ w => w.destroyed = false → Seated w where
  started := fun w _ hw hlive => ⟨(hw hlive).client, (hw hlive).distinct⟩
  startedCondition := fun _ _ _ => trivial
  dispatched := by
    intro vs s r fd sys w f ret w₁ via w₂ _ hw _ _ hlive hhands hkernel hf h hout
    obtain ⟨hseated, hclient⟩ := onReady_seated (hw hlive) hkernel hf h
    refine (hout.seated hseated fun n hn => ?_).2
    rw [hclient]
    exact (hkernel.fresh 0 n hn).2
  connectionEnds := fun _ _ hw _ _ hlive =>
    ⟨(hw hlive).client, (hw hlive).distinct⟩
  resolved := fun _ _ _ hw _ _ hlive =>
    ⟨(FdSelector.registered_notified _ _ _ _).mpr (hw hlive).client,
      (hw hlive).distinct⟩
  others := by
    intro vs s w sel m _ hw _ hsame hlive
    have hseated := hw hlive
    refine ⟨?_, hseated.distinct⟩
    exact (hsame _ ⟨hseated.nonneg, Or.inl rfl⟩).1.mpr hseated.client

end Socksv5

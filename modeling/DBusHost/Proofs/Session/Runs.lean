import DBusHost.Proofs.Session.Paths

/-!
# Runs are sequences of acts

Deliveries nest, since the steps of a handler may let further replies come in.  How a handler
runs is known by then to be a sequence of acts, by induction on how deep handlers may still
nest, and so is what the notify function does around it.
-/

namespace DBusHost

open Host

section

variable {α : Type} {Q : Host → Prop} {h h' : Host} {c : CallId} {run : Reacting}

/-! ## Deliveries -/

theorem follows_closing (hrun : ∀ w n actions, Moves Follows (run w n actions))
    (o : Option (PendingId × WrapperId × MessageId × Reaction)) :
    Moves Follows (closing run o) := by
  cases o with
  | none => exact moves_pure _
  | some o =>
      obtain ⟨p, w, m, reaction⟩ := o
      have hleave : Moves Follows leave := fun _ => Act.leave.follows
      have hletGo : Moves Follows (letGoWrapper w) := fun _ => (Act.letGoWrapper w).follows
      exact (moves_resume (hrun w) p m reaction).bind fun _ => hleave.bind fun _ => hletGo

/-- A call that exists may be completed. -/
theorem acts_complete (hrun : ∀ w n actions, Moves Follows (run w n actions))
    (ho : h.Orderly) (hc : c < h.calls.length) : Acts h ((complete run c).run h).2 := by
  have hopening : Acts h ((opening c).run h).2 := .single (.opening hc)
  rw [complete_eq, StateT.run_bind]
  exact hopening.trans (follows_closing hrun _ _ (hopening.orderly ho))

theorem acts_blockCall (hrun : ∀ w n actions, Moves Follows (run w n actions))
    (ho : h.Orderly) (hc : c < h.calls.length) : Acts h ((blockCall run c).run h).2 := by
  have hblocked : Acts h ((record (.blocked c)).run h).2 := by
    have hcalm : Moves Calm (record (.blocked c)) := calm_record trivial
    exact .single (.calm (hcalm h))
  exact hblocked.trans (acts_complete hrun (hblocked.orderly ho) hc)

theorem follows_block (hrun : ∀ w n actions, Moves Follows (run w n actions)) (p : PendingId) :
    Moves Follows (Pending.block run p).run := by
  intro h ho
  refine Session.bind_of_eq (R := Follows) (reads_openCall p) h (fun c hc ho => ?_) ho
  obtain ⟨hholding, rfl⟩ := eq_of_openCall hc
  have hp : p < h.pendings.length := Nat.lt_of_not_le fun hge => by
    rw [pending_of_length_le hge] at hholding
    cases hholding
  have hwait : Acts h { h with waiting := p :: h.waiting } := .single (.wait _)
  have hwait' : Moves Follows (modify fun h : Host => { h with waiting := h.waiting.tail }) :=
    fun _ => (Act.wait _).follows
  have hblock : Acts h _ := hwait.trans (acts_blockCall hrun (hwait.orderly ho) (ho.owned p hp))
  exact hblock.trans (hwait'.bind (fun _ => moves_letGo (.pending p)) _ (hblock.orderly ho))

/-! ## Calls -/

/-- Nobody has claimed a call that has just been made. -/
theorem Host.Orderly.isUnclaimed_createCall (ho : h.Orderly) (call : Call) :
    ((createCall call).run h).2.IsUnclaimed h.calls.length where
  loose := by
    refine ⟨?_, fun p hp => Nat.ne_of_lt (ho.owned p hp)⟩
    have hlen : (h.calls ++ [call]).length = h.calls.length + 1 := List.length_append
    exact Nat.lt_of_lt_of_eq (Nat.lt_succ_self _) hlen.symm
  unnamed e he hc := Nat.lt_irrefl _ (ho.handles e he _ hc).1
  unused e he := by
    have hwithin := ho.within e he
    refine ⟨?_, ?_⟩ <;> rintro rfl
    · exact Nat.lt_irrefl _ hwithin
    · exact Nat.lt_irrefl _ hwithin

theorem Host.IsUnclaimed.calm (hc : h.IsUnclaimed c) (hh : Calm h h') : h'.IsUnclaimed c where
  loose := (hh.touches (P := fun _ => False) (C := fun _ => False)).isLoose hc.loose
  unnamed e he := hc.unnamed e (hh.names ▸ he)
  unused e he := by
    obtain ⟨es, htrace, hcalm⟩ := hh.trace
    rw [htrace] at he
    rcases List.mem_append.mp he with he | he
    · exact hc.unused e he
    · refine ⟨?_, ?_⟩ <;> rintro rfl
      · exact hcalm _ he
      · exact hcalm _ he

theorem keeps_attach (c : CallId) : Moves (Keeps fun h => h.IsUnclaimed c)
    (modifyCall c fun call => { call with attached := true }) := by
  intro h ho hc
  have hmodify : Touches (fun _ => False) (· = c) h
      ((modifyCall c fun call => { call with attached := true }).run h).2 :=
    touches_modifyCall rfl (fun _ => ⟨rfl, rfl⟩) fun _ hp => .inl hp
  exact ⟨.single (.attach hc), hmodify.isLoose hc.loose, hc.unnamed, hc.unused⟩

/-- Registering with a call that nobody has claimed, and going on if that succeeds. -/
theorem followsIf_register {reaction : Reaction} {k : PendingId → Session α}
    (hk : ∀ p, Moves (FollowsIf fun h => c < h.calls.length) (k p).run) :
    Moves (FollowsIf fun h => h.IsUnclaimed c) (Pending.register c reaction >>= k).run := by
  intro h ho hc
  have hact : Act h ((Pending.register c reaction).run.run h).2 := .register hc reaction
  have hlt : c < ((Pending.register c reaction).run.run h).2.calls.length :=
    Nat.lt_of_lt_of_le hc.loose.1 (hact.grows ho).calls
  rw [Session.run_bind]
  rcases hrun : (Pending.register c reaction).run.run h with ⟨f | p, h'⟩
  · rw [hrun] at hact
    exact .single hact
  · rw [hrun] at hact hlt
    exact Relation.ReflTransGen.head hact (hk p h' (hact.orderly ho) hlt)

theorem keeps_noteLine (c : CallId) (name : String) :
    Moves (Keeps fun h => h.IsUnclaimed c) (noteLine name c) :=
  fun _ _ hc => ⟨.single (.calm (calm_noteLine hc.loose.1 name)),
    hc.calm (calm_noteLine hc.loose.1 name)⟩

/-- Making a call that may have a reply, and going on. -/
theorem follows_createCall {name : String} {kind : CallKind} {reply : Option Message}
    (attached : Bool) {k : CallId → Session α}
    (hk : ∀ c, Moves (FollowsIf fun h => h.IsUnclaimed c) (k c).run) :
    Moves Follows (do
      let c ← createCall (.start kind (← createReply name reply) attached)
      k c : Session α).run := by
  intro h ho
  have hmoves : Moves Follows (createReply name reply) := moves_createReply name reply
  have hreply := hmoves h ho
  have ho' := hreply.orderly ho
  have hcreate : Act ((createReply name reply).run h).2 _ :=
    .createCall kind ((createReply name reply).run h).1 attached
  have hclaim := ho'.isUnclaimed_createCall
    (.start kind ((createReply name reply).run h).1 attached)
  have hacts : Acts h _ := hreply.tail hcreate
  exact hacts.trans (hk _ _ (hacts.orderly ho) hclaim)

/-- Making a call under a name, and going on. -/
theorem follows_prepareCall {name : String} {kind : CallKind} {reply : Option Message}
    {k : CallId → Session α}
    (hk : ∀ c, Moves (FollowsIf fun h => h.IsUnclaimed c) (k c).run) :
    Moves Follows ((liftM (prepareCall name kind reply) : Session CallId) >>= k).run :=
  follows_createCall true fun c =>
    Session.moves_bind_keeps (Session.moves_lift (keeps_noteLine c name)) fun _ _ => hk c

theorem follows_expect (name : String) (reaction : Reaction) (reply : Option Message)
    (accepts : Bool) :
    Moves Follows (Step.perform run (.expect name reaction reply accepts)).run := by
  refine follows_prepareCall fun c => followsIf_register fun p h ho _ => ?_
  exact ho.acts_assign (t := .pending p) (by simp) name

theorem keeps_sendForReply (b : String) (m : MessageId) (c : CallId) (ms : Int) :
    Moves (Keeps fun h => h.IsUnclaimed c) (Session.sendForReply b m c ms).run :=
  Session.moves_sendForReply_of (fun _ _ hs _ hc => ⟨.single (.calm hs.toCalm), hc.calm hs.toCalm⟩)
    (keeps_attach c) b m ms

theorem eq_of_sendForReply {b : String} {m : MessageId} {c d : CallId} {ms : Int}
    (hd : ((Session.sendForReply b m c ms).run.run h).1 = .ok (some d)) : d = c := by
  obtain ⟨-, h₁, -, hd⟩ := Session.exists_of_bind_ok hd
  obtain ⟨-, h₂, -, hd⟩ := Session.exists_of_bind_ok hd
  obtain ⟨h₃, h₄, -, hd⟩ := Session.exists_of_bind_ok hd
  split at hd
  · obtain ⟨-, h₅, -, hd⟩ := Session.exists_of_bind_ok hd
    obtain ⟨-, h₆, -, hd⟩ := Session.exists_of_bind_ok hd
    cases hd
    rfl
  · cases hd

theorem follows_request (name bus : String) (message : Subject) (reaction : Reaction)
    (reply : Option Message) (timeout : Option Recipe) :
    Moves Follows (Step.perform run (.request name bus message reaction reply timeout)).run := by
  refine Session.moves_bind (Session.reads_busNamed bus).of_eq fun b =>
    follows_createCall false fun c => ?_
  refine Session.moves_bind_keeps (reads_message message).of_eq fun m _ =>
    Session.moves_bind_keeps (Session.reads_milliseconds timeout).of_eq fun ms _ =>
    Session.moves_bind_keeps (keeps_sendForReply b m c ms) fun sent hsent => ?_
  cases sent with
  | none => exact fun _ _ _ => .refl
  | some d =>
      obtain ⟨r, hr⟩ := hsent
      obtain rfl := eq_of_sendForReply hr
      refine followsIf_register ?_
      intro p h ho hlt
      have hnote : Acts h _ := .single (.calm (calm_noteLine hlt name))
      exact hnote.trans ((hnote.orderly ho).acts_assign (t := .pending p) (by simp) name)

/-- In an orderly state, the call of a handle with a name belongs to no pending call. -/
theorem Host.Orderly.isLoose_of_handleNamed (ho : h.Orderly) {name : String}
    (hc : ((Session.handleNamed name).run.run h).1 = .ok c) : h.IsLoose c :=
  ho.handles _ (Session.mem_of_handleNamed hc) c rfl

/-- Going on with the call of a handle that refers to it. -/
theorem follows_attachedCall {k : CallId → Session α}
    (hk : Moves (FollowsIf fun h => h.IsLoose c) (k c).run) :
    Moves (FollowsIf fun h => h.IsLoose c) (Session.attachedCall c >>= k).run := by
  refine Session.moves_bind_keeps (Session.reads_attachedCall c).of_eq ?_
  intro d hd
  obtain ⟨r, hd⟩ := hd
  obtain ⟨rfl, -⟩ := Session.eq_of_attachedCall hd
  exact hk

/-- Going on with the call of a handle that a name stands for. -/
theorem follows_handleNamed {name : String} {k : CallId → Session α}
    (hk : ∀ c, Moves (FollowsIf fun h => h.IsLoose c) (k c).run) :
    Moves Follows (Session.handleNamed name >>= k).run := by
  intro h ho
  refine Session.bind_of_eq (R := Follows) (Session.reads_handleNamed name) h
    (fun c hc ho => ?_) ho
  exact hk c h ho (ho.isLoose_of_handleNamed hc)

/-- Going on with a call that a name stood for when it was made. -/
theorem follows_lineNamed {name : String} {k : CallId → Session α}
    (hk : ∀ c, Moves (FollowsIf fun h => c < h.calls.length) (k c).run) :
    Moves Follows (Session.lineNamed name >>= k).run := by
  intro h ho
  refine Session.bind_of_eq (R := Follows) (Session.reads_lineNamed name) h (fun c hc ho => ?_) ho
  exact hk c h ho (ho.lines _ (Session.mem_of_lineNamed hc))

/-- Going on with the thing that a name stands for, if it is a handle or a pending call. -/
theorem follows_thing {name : String} {k : Thing → Session α}
    (hother : ∀ t, (∀ c, t ≠ .handle c) → Moves Follows (k t).run)
    (hhandle : ∀ c, Moves (FollowsIf fun h => h.IsLoose c) (k (.handle c)).run) :
    Moves Follows (Session.thing name >>= k).run := by
  intro h ho
  refine Session.bind_of_eq (R := Follows) (Session.reads_thing name) h (fun t ht ho => ?_) ho
  cases t with
  | handle c => exact hhandle c h ho (ho.handles _ (Session.mem_of_thing ht) c rfl)
  | wrapper w => exact hother _ (by simp) h ho
  | pending p => exact hother _ (by simp) h ho
  | reader i => exact hother _ (by simp) h ho
  | writer i => exact hother _ (by simp) h ho

theorem follows_callStep (hrun : ∀ w n actions, Moves Follows (run w n actions)) (s : CallStep) :
    Moves Follows (s.perform run).run := by
  cases s with
  | replyArrives name => exact follows_lineNamed fun c h ho hc => acts_complete hrun ho hc
  | freeData name => exact follows_lineNamed fun c h ho _ => .single (.free c)
  | cancel name =>
      refine follows_thing (fun t ht => ?_) fun c => ?_
      · cases t with
        | pending p => exact fun h _ => .single (.cancel p)
        | handle c => exact absurd rfl (ht c)
        | wrapper w => exact Session.moves_throw _
        | reader i => exact Session.moves_throw _
        | writer i => exact Session.moves_throw _
      · exact follows_attachedCall fun h ho hc => .single (.cancelCall hc)
  | block name =>
      refine follows_thing (fun t ht => ?_) fun c => ?_
      · cases t with
        | pending p =>
            exact Session.moves_bind (follows_block hrun p) fun _ => Session.moves_pure _
        | handle c => exact absurd rfl (ht c)
        | wrapper w => exact Session.moves_throw _
        | reader i => exact Session.moves_throw _
        | writer i => exact Session.moves_throw _
      · exact follows_attachedCall fun h ho hc => acts_blockCall hrun ho hc.1
  | completed name =>
      refine Session.moves_bind (Session.reads_thing name).of_eq ?_
      intro t
      cases t with
      | pending p =>
          exact Session.moves_bind (reads_completed p).of_eq fun _ => Session.moves_pure _
      | handle c => exact Session.moves_throw _
      | wrapper w => exact Session.moves_throw _
      | reader i => exact Session.moves_throw _
      | writer i => exact Session.moves_throw _
  | instantiate => exact Session.moves_throw _
  | live => exact Session.moves_get fun h => refl_of Follows h
  | tryLock => exact Session.moves_get fun h => refl_of Follows h
  | newHandle name reply =>
      refine follows_prepareCall ?_
      intro c h ho hc
      have hassign : Acts h ((assign name (.handle c)).run h).2 := by
        refine ho.acts_assign (fun d hd => ?_) name
        obtain rfl : c = d := by simpa using hd
        exact hc.loose
      exact hassign
  | setNotify name notifies frees x =>
      refine follows_handleNamed ?_
      intro c
      refine Session.moves_bind_keeps (Session.reads_build x).of_eq ?_
      intro x _
      exact follows_attachedCall fun h ho hc => .single (.setNotify hc notifies frees x)
  | handleCompleted name =>
      exact follows_handleNamed fun c => follows_attachedCall fun h ho hc => .refl
  | stealReply name =>
      exact follows_handleNamed fun c =>
        follows_attachedCall fun h ho hc => .single (.stealReply hc)
  | unreference name =>
      exact follows_handleNamed fun c h ho hc => .single (.unreference hc)

/-! ## Steps and handlers -/

theorem follows_step (hrun : ∀ w n actions, Moves Follows (run w n actions)) (s : Step) :
    Moves Follows (s.perform run).run := by
  cases s with
  | message s => exact moves_messageStep s
  | iterator s => exact moves_iteratorStep s
  | call s => exact follows_callStep hrun s
  | connection s => exact moves_connectionStep s
  | thing s => exact moves_thingStep s
  | expect name reaction reply accepts => exact follows_expect name reaction reply accepts
  | request name bus message reaction reply timeout =>
      exact follows_request name bus message reaction reply timeout

/-- The induction is on how deep handlers may still nest. -/
theorem follows_reactWithin (depth : Nat) (w : WrapperId) (n : Nat) (actions : List Action) :
    Moves Follows (reactWithin depth w n actions) := by
  induction depth generalizing w n actions with
  | zero => exact moves_pure _
  | succ depth ih =>
      exact moves_runActions (follows_step ih) (fun name => moves_assign name (by simp)) n actions

/-! ## Whole sessions -/

/-- A session is a sequence of acts from the state in which nothing has been made. -/
theorem Script.acts_run (s : Script) : Acts (.start s.validator s.failures) s.run.2 :=
  moves_reportSteps (follows_step (follows_reactWithin s.handlers)) s.steps _ (orderly_start _ _)

end

end DBusHost

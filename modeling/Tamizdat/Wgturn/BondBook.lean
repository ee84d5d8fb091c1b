/- source: internal/wgturn/bond.go, internal/wgturn/server.go
   digest: The bonds as a book of contenders; the server's actions are moves of it, or none. -/

import Tamizdat.Machine.Takeover
import Tamizdat.Wgturn.Bonds

set_option autoImplicit false

open List Option
namespace Tamizdat.Wgturn.Bonds
open Machine.Maps Machine.Takeover Wgturn.Devices

structure Call.Proper (call : Call) : Prop where
  unbound : call.stage.pending = true → call.bond = none
  socket : call.stage.pending = true → call.stage.dialled = false → call.wgOpen = false
  undecided : call.stage.ended = false → call.identityNeedsClose ≠ some false

lemma Call.Proper.fresh (bind : BondBind) : Call.Proper { bind := bind } :=
  ⟨fun _ => rfl, fun _ _ => rfl, by simp⟩

variable {call : Call}
variable {call' : Call} {s t : State} {i b : Nat} {f : Call → Call}
lemma Call.Proper.beyond (h : call.Proper) (later : call'.stage.pending = false)
    (before : call.stage.ended = false)
    (same : call'.identityNeedsClose = call.identityNeedsClose) : call'.Proper := by
  refine ⟨by simp [later], by simp [later], fun _ => ?_⟩
  rw [same]
  exact h.undecided before

lemma Call.Proper.changes {cfg l} (changes : Changes cfg s l i call call') (h : call.Proper) :
    call'.Proper := by
  have later {bond : ServerBond} (found : call.bond = some bond) : ¬ call.stage.pending = true := by
    intro pending
    simp [h.unbound pending] at found
  cases changes with
  | move stage before after socket =>
    refine ⟨fun _ => h.unbound before, ?_, fun _ => h.undecided (Stage.not_ended_of_pending before)⟩
    intro _ undialled
    exact h.socket before (socket.trans undialled)
  | identify identity before =>
    have pending : call.stage.pending = true := by rw [before]; rfl
    exact ⟨fun _ => h.unbound pending, fun _ _ => h.socket pending (by rw [before]; rfl), by simp⟩
  | equip dev config env before label recorded =>
    have pending : call.stage.pending = true := by rw [before]; rfl
    exact ⟨fun _ => h.unbound pending, fun _ _ => h.socket pending (by rw [before]; rfl),
      fun _ => h.undecided (Stage.not_ended_of_pending pending)⟩
  | dial before =>
    exact ⟨fun _ => h.unbound (by rw [before]; rfl), by simp [Stage.dialled],
      fun _ => h.undecided (by rw [before]; rfl)⟩
  | discard text before =>
    exact ⟨fun _ => h.unbound (by rw [before]; rfl), fun _ _ => rfl,
      fun _ => h.undecided (by rw [before]; rfl)⟩
  | commit before label working absent | lose winner before label recorded late | arm before
  | publish dev before label recorded device | spawn before =>
    exact h.beyond rfl (by rw [before]; rfl) rfl
  | concede stage before after =>
    refine h.beyond ?_ (Stage.not_ended_of_defeated before) rfl
    rcases after with defeated | leaving
    · exact Stage.not_pending_of_defeated defeated
    · exact Stage.not_pending_of_leaving leaving
  | settle before => exact ⟨by simp [Stage.pending], by simp [Stage.pending], by simp [Stage.ended]⟩
  | unwind answer before =>
    exact ⟨by simp [Stage.pending], by simp [Stage.pending], by simp [Stage.ended]⟩
  | touch bond next found touches =>
    exact ⟨fun pending => absurd pending (later found), fun pending => absurd pending (later found),
      h.undecided⟩
  | closeStep next bond found moved =>
    obtain ⟨-, stage, needs, -⟩ := Call.closeStep_frame moved
    have later := stage ▸ later found
    refine ⟨fun pending => absurd pending later, fun pending => absurd pending later, ?_⟩
    rw [stage, needs]
    exact h.undecided
  | cancel | attach attachment => exact ⟨h.unbound, h.socket, h.undecided⟩

def State.Proper (s : State) : Prop :=
  ∀ (i : Nat) (call : Call), s.calls[i]? = some call → call.Proper

lemma State.Proper.step {cfg l} (h : s.Proper) (moved : Bonds.step cfg s l = some t) : t.Proper :=
  calls_invariant (P := fun _ => Call.Proper) moved (fun _ => Call.Proper.fresh)
    (fun _ _ _ => Call.Proper.changes) h

namespace Stage
def phase (identityNeedsClose : Option Bool) : Stage → Phase
  | .entry | .lookup | .matched _ => .idle
  | .authenticating | .authenticated => .claimed
  | .takeover => .owning
  | .retiring _ _ | .provisioning | .provisioned => .cleared
  | .dialing | .dialed | .discarding | .committing => .engaged
  | .failing _ => .leaving
  | .lost _ | .lostClosing _ => .lost
  | .lostClosed _ => .gone
  | .arming | .publishing | .spawning | .settling => .committed
  | .unwinding _ | .returned _ => if identityNeedsClose = some false then .committed else .gone

lemma idle_stage {needs : Option Bool} {stage : Stage} (h : stage.phase needs = .idle) :
    stage.pending = true ∧ stage.dialled = false := by
  cases stage <;> simp_all [phase, pending, dialled]
  all_goals split_ifs at h

def retirees : Stage → List Nat
  | .retiring todo current => todo ++ current.toList
  | _ => []
end Stage

def Call.phase (call : Call) : Phase := call.stage.phase call.identityNeedsClose

lemma Call.Proper.busy (h : call.Proper) {bond : ServerBond} (present : call.bond = some bond) :
    call.phase ≠ .idle := by
  intro idle
  simp [h.unbound (Stage.idle_stage idle).1] at present

def Call.shut (call : Call) : Bool := call.bond.any fun bond => bond.closeOnce.socketClosed
def unwritten : Owner BondKey := ⟨⟨"", ""⟩, .idle, [], false, false⟩

def Call.owner (call : Call) : Owner BondKey :=
  if call.phase = .idle then unwritten
  else ⟨call.key, call.phase, call.stage.retirees, call.wgOpen, call.shut⟩

def Shutdown.list : Shutdown → List Nat
  | .closing todo current => todo ++ current.toList
  | _ => []

def Shutdown.cleared : Shutdown → Bool
  | .stored => false
  | _ => true

/-- The server as a book: one contender for each call, grouped by device. -/
def State.book (s : State) : Book BondKey String where
  closed := s.bondClosed
  cleared := s.shutdowns.any Shutdown.cleared
  committed := s.bonds
  claims := s.bondClaims
  owner i := ((s.calls[i]?).map Call.owner).getD unwritten
  lists := s.shutdowns.map Shutdown.list

lemma State.owner_of_found (found : s.calls[i]? = some call) : s.book.owner i = call.owner := by
  simp [State.book, found]

variable {c : Nat}
lemma State.book_modify (found : s.calls[c]? = some call) :
    (s.modify c f).book = s.book.put c (f call).owner := by
  unfold Book.put
  rw [State.book, State.book]
  congr 1
  funext i
  rw [State.calls_modify]
  by_cases same : i = c
  · subst same
    simp [found]
  · have other : c ≠ i := fun eq => same eq.symm
    rw [Function.update_of_ne same]
    simp [other]

open Call (owner)
lemma State.book_goto {stage} (found : s.calls[c]? = some call) :
    (s.goto c stage).book = s.book.put c (owner { call with stage := stage }) :=
  State.book_modify found

lemma State.book_modify_same
    (same : ∀ call, s.calls[c]? = some call → (f call).owner = call.owner) :
    (s.modify c f).book = s.book := by
  rw [State.book, State.book]
  congr 1
  funext i
  rw [State.calls_modify]
  cases found : s.calls[i]? with
  | none => rfl
  | some call =>
    simp only [Option.map_some, Option.getD_some]
    split_ifs with here
    · subst here
      exact same call found
    · rfl

lemma State.book_modifyBond {f : ServerBond → ServerBond} (same : ∀ bond, s.bondAt b = some bond →
      (f bond).closeOnce.socketClosed = bond.closeOnce.socketClosed) :
    (s.modifyBond b f).book = s.book := by
  refine State.book_modify_same ?_
  intro call found
  have shut : Call.shut { call with bond := call.bond.map f } = call.shut := by
    cases present : call.bond with
    | none => simp [Call.shut, present]
    | some bond => simp [Call.shut, present, same bond (by simp [State.bondAt, found, present])]
  rw [owner, shut, owner]
  rfl

lemma ServerBond.startClose_socketClosed (bond : ServerBond) :
    bond.startClose.closeOnce.socketClosed = bond.closeOnce.socketClosed := by
  unfold ServerBond.startClose
  split_ifs with fresh
  · simp [fresh, CloseOnce.socketClosed]
  · rfl

lemma State.book_startClose (moved : s.startClose b = some t) : t.book = s.book := by
  rw [State.startClose_eq moved]
  exact State.book_modifyBond fun bond _ => bond.startClose_socketClosed

lemma Call.owner_of_busy (busy : call.phase ≠ .idle) :
    call.owner = ⟨call.key, call.phase, call.stage.retirees, call.wgOpen, call.shut⟩ := by
  rw [owner, if_neg busy]

lemma Call.owner_goto {stage : Stage} (busy : call.phase ≠ .idle)
    (later : stage.phase call.identityNeedsClose ≠ .idle) :
    owner { call with stage := stage } = { call.owner with
        phase := stage.phase call.identityNeedsClose, retirees := stage.retirees } := by
  have after : Call.phase { call with stage := stage } ≠ .idle := later
  rw [Call.owner_of_busy after, Call.owner_of_busy busy]
  rfl

abbrev BookMove : Book BondKey String → Book BondKey String → Prop :=
  Move BondKey.deviceID bondMaxActiveAndClaims

/-- The book of `t` is reached from that of `s` by moves of the protocol. -/
def Simulates (s t : State) : Prop := Relation.ReflTransGen BookMove s.book t.book

open Call (phase)
namespace Simulates
lemma same (h : t.book = s.book) : Simulates s t := by
  unfold Simulates
  rw [h]

lemma of_book {u} (h : u.book = s.book) (rest : Simulates u t) : Simulates s t := by
  unfold Simulates at rest ⊢
  rwa [h] at rest

lemma one (h : BookMove s.book t.book) : Simulates s t := .single h

variable (found : s.calls[c]? = some call)
include found
lemma goto {stage : Stage} (busy : call.phase ≠ .idle)
    (later : stage.phase call.identityNeedsClose ≠ .idle)
    (moved : BookMove s.book (s.book.put c { s.book.owner c with
      phase := stage.phase call.identityNeedsClose, retirees := stage.retirees })) :
    Simulates s (s.goto c stage) := by
  refine one ?_
  rw [State.goto, State.book_modify found, Call.owner_goto busy later, ← State.owner_of_found found]
  exact moved

lemma advance {p stage} {was : Stage} (before : call.stage = was)
    (moved : BookMove s.book (s.book.advance c p))
    (busy : was.phase call.identityNeedsClose ≠ .idle := by simp [Stage.phase])
    (phase : stage.phase call.identityNeedsClose = p := by rfl)
    (later : p ≠ .idle := by simp [Stage.phase])
    (retirees : stage.retirees = was.retirees := by rfl) : Simulates s (s.goto c stage) := by
  subst before
  refine goto found busy (by rw [phase]; exact later) ?_
  rw [phase, retirees]
  have same : (s.book.owner c).retirees = call.stage.retirees := by
    rw [State.owner_of_found found, Call.owner_of_busy busy]
  rw [← same]
  exact moved

lemma unrecorded {was : Stage} (before : call.stage = was)
    (shut : (f call).shut = call.shut := by rfl)
    (phase : (f call).phase = was.phase call.identityNeedsClose := by rfl)
    (retirees : (f call).stage.retirees = was.retirees := by rfl)
    (key : (f call).key = call.key := by rfl) (socket : (f call).wgOpen = call.wgOpen := by rfl) :
    Simulates s (s.modify c f) := by
  subst before
  refine same (State.book_modify_same ?_)
  intro call' found'
  rw [found] at found'
  cases found'
  have same : (f call).phase = call.phase := phase
  rw [owner, owner, same, key, retirees, socket, shut]

lemma fails {text} {was : Stage} (proper : call.Proper) (stage : call.stage = was)
    (claiming : (was.phase call.identityNeedsClose).claiming = true := by rfl)
    (finished : was.retirees = [] := by rfl) (pending : was.pending = true := by rfl)
    (undialled : was.dialled = false := by rfl) : Simulates s (s.goto c (.failing text)) := by
  subst stage
  have closed := proper.socket pending undialled
  have busy : call.phase ≠ .idle := Phase.not_idle_of_claiming claiming
  have owner := State.owner_of_found found
  rw [Call.owner_of_busy busy] at owner
  refine goto found busy (by simp [Stage.phase]) ?_
  have moved : BookMove s.book
      (s.book.put c { s.book.owner c with phase := .leaving, isOpen := false }) :=
    .yield c (by rw [owner]; exact claiming) (by rw [owner]; exact finished)
  rw [owner] at moved ⊢
  rw [closed, finished] at moved ⊢
  exact moved

lemma quits {answer : Answer} (proper : call.Proper) (idle : call.phase = .idle) :
    Simulates s (s.goto c (.unwinding answer)) := by
  obtain ⟨pending, undialled⟩ := Stage.idle_stage idle
  have gone : phase { call with stage := .unwinding answer } = .gone := by
    simp [phase, Stage.phase, proper.undecided (Stage.not_ended_of_pending pending)]
  refine one ?_
  rw [State.goto, State.book_modify found, Call.owner_of_busy (by rw [gone]; simp), gone]
  have closed := proper.socket pending undialled
  have shut : Call.shut { call with stage := .unwinding answer } = false := by
    simp [Call.shut, proper.unbound pending]
  rw [shut]
  simp only [closed, Stage.retirees]
  exact .quit c _ (by rw [State.owner_of_found found, owner, if_pos idle]; rfl)
end Simulates
open Call (owner_of_busy)
open CloseOnce (socketClosed)
open State (book_modifyBond owner_of_found)
variable {cfg : Config} {stage : Stage}
lemma State.book_mark (s : State) (retired : List Nat) :
    (retired.foldl (fun t b => t.modifyBond b fun bond =>
      { bond with closing := true }) s).book = s.book := by
  induction retired generalizing s with
  | nil => rfl
  | cons b rest ih =>
    rw [foldl_cons, ih]
    exact book_modifyBond fun _ _ => rfl

lemma shut_of_closeDone (proper : s.Proper) (closed : s.closeDone b = true) :
    (s.book.owner b).shut = true := by
  unfold State.closeDone State.bondAt at closed
  cases found : s.calls[b]? with
  | none => simp [found] at closed
  | some call =>
    cases present : call.bond with
    | none => simp [found, present] at closed
    | some bond =>
      have done : bond.closeOnce = .done := by simpa [found, present] using closed
      rw [owner_of_found found, owner_of_busy ((proper b call found).busy present)]
      simp [Call.shut, present, done, socketClosed]

lemma working_of_not_stopping (h : ¬ s.stopping call = true) : s.bondClosed = false := by
  simp only [State.stopping, Bool.or_eq_true, not_or, Bool.not_eq_true] at h
  exact h.1

variable {todo : List Nat}
variable {x : Nat}
lemma mem_erase_append (inside : b ∈ todo) : x ∈ todo.erase b ++ [b] ↔ x ∈ todo := by
  rw [mem_append, mem_singleton]
  constructor
  · rintro (kept | rfl)
    · exact mem_of_mem_erase kept
    · exact inside
  · intro kept
    by_cases same : x = b
    · exact .inr same
    · exact .inl ((mem_erase_of_ne same).mpr kept)

section
variable (found : s.calls[c]? = some call)
include found
lemma Simulates.stays {was : Stage} (before : call.stage = was)
    (phase : stage.phase call.identityNeedsClose = was.phase call.identityNeedsClose := by rfl)
    (retirees : stage.retirees = was.retirees := by rfl) : Simulates s (s.goto c stage) :=
  .unrecorded found before rfl phase retirees

lemma Simulates.modifyBond_stays {f : ServerBond → ServerBond} {was : Stage}
    (before : call.stage = was)
    (socket : ∀ bond, (f bond).closeOnce.socketClosed = bond.closeOnce.socketClosed)
    (phase : ∀ needs, stage.phase needs = was.phase needs := by intro; rfl)
    (retirees : stage.retirees = was.retirees := by rfl) :
    Simulates s ((s.modifyBond b f).goto c stage) := by
  obtain ⟨call', found', same⟩ := State.modifyBond_found b f found
  refine .of_book ?_ (.stays found' (same.trans before) (phase _) retirees)
  exact book_modifyBond fun bond _ => socket bond

lemma lookupSection_simulates (proper : call.Proper) (stage : call.stage = .lookup) :
    Simulates s (s.lookupSection c call) := by
  have idle : call.phase = .idle := by rw [phase, stage]; rfl
  have pending : call.stage.pending = true := by rw [stage]; rfl
  unfold State.lookupSection
  split
  · exact .stays found stage
  · rename_i absent
    split
    · split_ifs <;> exact .quits found proper idle
    · split_ifs with joiner full busy
      · exact .quits found proper idle
      · exact .quits found proper idle
      · exact .quits found proper idle
      · refine .one ?_
        have record : Call.owner { call with stage := .authenticating } =
            ⟨call.key, .claimed, [], false, false⟩ := by
          have shut : call.shut = false := by simp [Call.shut, proper.unbound pending]
          have closed := proper.socket pending (by rw [stage]; rfl)
          rw [owner_of_busy (by simp [phase, Stage.phase])]
          simp [phase, Stage.phase, Stage.retirees, closed, Call.key]
          exact shut
        have book : State.book { s.goto c .authenticating with
            bondClaims := s.bondClaims.insert call.key call.bind.token } =
              { s.book.put c ⟨call.key, .claimed, [], false, false⟩ with
                claims := s.book.claims.insert call.key call.bind.token } := by
          show { (s.goto c .authenticating).book with
            claims := s.book.claims.insert call.key call.bind.token } = _
          rw [State.book_goto found, record]
        rw [book]
        refine .claim c call.key call.bind.token ?_ absent ?_ ?_
        · rw [owner_of_found found, Call.owner, if_pos idle]
          rfl
        · intro other claimed same
          have none : s.claimsForDevice call.bind.deviceID = 0 := by
            simp only [bondMaxRunsPerDevice] at busy
            omega
          rw [State.claimsForDevice, countP_eq_zero] at none
          obtain ⟨token, present⟩ := isSome_iff_exists.mp claimed
          exact none other (mem_keys_iff.mpr ⟨token, present⟩) (decide_eq_true same)
        · exact Nat.lt_of_not_ge full

lemma authenticate_simulates (hook : ClientIdentity × String) (proper : call.Proper)
    (stage : call.stage = .authenticating) : Simulates s (s.authenticate cfg c call hook) := by
  unfold State.authenticate
  simp only
  split_ifs
  · exact .fails found proper stage
  · exact .unrecorded found stage

lemma retireSection_simulates (stage : call.stage = .takeover) :
    Simulates s (s.retireSection c call.key) := by
  have busy : call.phase ≠ .idle := by
    rw [phase, stage]
    simp [Stage.phase]
  have key : (s.book.owner c).key = call.key := by
    rw [owner_of_found found, owner_of_busy busy]
  obtain ⟨call', found', stage'⟩ :=
    State.mark_found (valuesAt s.bonds (s.retiredKeys call.key)) found
  have bookMarked := State.book_mark s (valuesAt s.bonds (s.retiredKeys call.key))
  have busy' : call'.phase ≠ .idle := by
    rw [phase, stage', stage]
    simp [Stage.phase]
  have owner' : call'.owner = s.book.owner c := by
    rw [← owner_of_found found', bookMarked]
  have book : (s.retireSection c call.key).book = s.book.sweep BondKey.deviceID c := by
    set marked := (valuesAt s.bonds (s.retiredKeys call.key)).foldl (fun t b =>
      t.modifyBond b fun bond => { bond with closing := true }) s
    show { (marked.goto c _).book with committed := eraseAll s.bonds (s.retiredKeys call.key) } = _
    rw [State.book_goto found', Call.owner_goto busy' (by simp [Stage.phase]), owner', bookMarked,
      Book.sweep, key]
    simp only [Stage.phase, Stage.retirees, toList_none, append_nil]
    rfl
  refine .one ?_
  rw [book]
  refine .retire c ?_
  rw [owner_of_found found, owner_of_busy busy]
  rw [phase, stage]
  rfl

lemma provision_simulates (env : Provisioning) (proper : call.Proper)
    (stage : call.stage = .provisioning) : Simulates s (s.provision cfg c call env) := by
  unfold State.provision
  split
  · exact .fails found proper stage
  · simp only
    split
    · exact .fails found proper stage
    · rename_i dev config granted
      exact Simulates.unrecorded (f := fun call =>
        { call with stage := .provisioned, device := some dev, config := config }) found stage

lemma State.book_create (proper : call.Proper)
    (before : call.stage = .committing) (later : stage.phase call.identityNeedsClose ≠ .idle)
    (finished : stage.retirees = []) :
    (s.create c stage).book = s.book.advance c (stage.phase call.identityNeedsClose) := by
  have busy : call.phase ≠ .idle := by
    rw [phase, before]
    simp [Stage.phase]
  have unbound := proper.unbound (by rw [before]; rfl)
  have nobody : call.stage.retirees = [] := by rw [before]; rfl
  have created : phase { call with bond := some {}, stage := stage } ≠ .idle := later
  rw [State.create, State.book_modify found, Book.advance, owner_of_found found,
    owner_of_busy created, owner_of_busy busy]
  simp [phase, Call.key, Call.shut, unbound, finished, nobody, socketClosed]

lemma finishBondClaim_simulates (proper : call.Proper) (stage : call.stage = .committing) :
    Simulates s (s.finishBondClaim c call) := by
  have engaged : call.phase = .engaged := by rw [Call.phase, stage]; rfl
  have owner := owner_of_found found
  rw [owner_of_busy (by rw [engaged]; simp), engaged] at owner
  have phase : (s.book.owner c).phase = .engaged := by rw [owner]
  have key : (s.book.owner c).key = call.key := by rw [owner]
  have loses : ∀ winner, (s.bondClosed = true ∨ s.bonds.lookup call.key ≠ none) →
      Simulates s ((s.create c (.lost winner)).dropClaim call.key) := by
    intro winner late
    have book : ((s.create c (.lost winner)).dropClaim call.key).book =
        (s.book.advance c .lost).unclaim (s.book.owner c).key := by
      show (s.create c (.lost winner)).book.unclaim call.key = _
      rw [State.book_create found proper stage (by simp [Stage.phase]) rfl, key]
      rfl
    refine .one ?_
    rw [book]
    exact .lose c phase (by rw [key]; exact late)
  unfold State.finishBondClaim
  split_ifs with closed
  · exact loses none (.inl closed)
  · split
    · rename_i existing present
      exact loses (some existing) (.inr (by simp [present]))
    · rename_i absent
      have book : State.book { (s.create c .arming).dropClaim call.key with
          bonds := s.bonds.insert call.key c } =
            (s.book.settle c).unclaim (s.book.owner c).key := by
        show { (s.create c .arming).book.unclaim call.key with
          committed := s.bonds.insert call.key c } = _
        rw [State.book_create found proper stage (by simp [Stage.phase]) rfl, Book.settle, key]
        rfl
      refine .one ?_
      rw [book]
      exact .commit c phase (by simpa [State.book] using closed) (by rw [key]; exact absent)

lemma owner_phase {p} (phase : call.phase = p) (busy : p ≠ .idle) : (s.book.owner c).phase = p := by
  rw [owner_of_found found, owner_of_busy (by rw [phase]; exact busy)]
  exact phase

lemma retirePick_simulates {u} (stage : call.stage = .retiring todo none) (inside : b ∈ todo)
    (started : s.startClose b = some u) :
    Simulates s (u.goto c (.retiring (todo.erase b) (some b))) := by
  have bookU := State.book_startClose started
  obtain ⟨call', found', stage'⟩ : ∃ call', u.calls[c]? = some call' ∧
      call'.stage = call.stage := by
    rw [State.startClose_eq started]
    exact State.modifyBond_found b _ found
  have cleared : call'.phase = .cleared := by rw [phase, stage', stage]; rfl
  have record := owner_of_found found'
  rw [owner_of_busy (by rw [cleared]; simp), stage', stage, cleared] at record
  have dropped : BookMove u.book
      (u.book.put c { u.book.owner c with retirees := todo.erase b ++ [b] }) := by
    refine .drop c _ (owner_phase found' cleared (by simp)) ?_ ?_
    · intro x kept
      rw [record]
      simpa [Stage.retirees] using (mem_erase_append inside).mp kept
    · intro x kept gone
      rw [record] at kept
      exact absurd ((mem_erase_append inside).mpr (by simpa [Stage.retirees] using kept)) gone
  refine .of_book bookU (.goto found' (by rw [cleared]; simp) (by simp [Stage.phase]) ?_)
  rw [record] at dropped ⊢
  simpa [Stage.phase, Stage.retirees] using dropped

lemma retireNext_simulates (proper : s.Proper) (stage : call.stage = .retiring todo (some b))
    (closed : s.closeDone b = true) : Simulates s (s.goto c (.retiring todo none)) := by
  have cleared : call.phase = .cleared := by rw [phase, stage]; rfl
  have record := owner_of_found found
  rw [owner_of_busy (by rw [cleared]; simp)] at record
  have dropped : BookMove s.book (s.book.put c { s.book.owner c with retirees := todo }) := by
    refine .drop c todo (owner_phase found cleared (by simp)) ?_ ?_
    · intro x kept
      rw [record, stage]
      exact mem_append_left _ kept
    · intro x listed gone
      rw [record, stage] at listed
      rcases mem_append.mp listed with kept | current
      · exact absurd kept gone
      · rw [show x = b by simpa using current]
        exact shut_of_closeDone proper closed
  refine .goto found (by rw [cleared]; simp) (by simp [Stage.phase]) ?_
  rw [record, cleared] at dropped ⊢
  simpa [Stage.phase, Stage.retirees] using dropped

lemma dial_simulates (proper : call.Proper) (stage : call.stage = .dialing) :
    Simulates s (s.modify c fun call => { call with stage := .dialed, wgOpen := true }) := by
  have engaged : call.phase = .engaged := by rw [phase, stage]; rfl
  have record := owner_of_found found
  rw [owner_of_busy (by rw [engaged]; simp), stage, engaged] at record
  have unshut : call.shut = false := by
    simp [Call.shut, proper.unbound (by rw [stage]; rfl)]
  have moved : BookMove s.book (s.book.put c { s.book.owner c with isOpen := true }) :=
    .grasp c (by rw [record]) (by rw [record]; exact unshut)
  refine .one ?_
  rw [State.book_modify found, owner_of_busy (by simp [phase, Stage.phase])]
  rw [record] at moved
  exact moved

lemma discard_simulates {text} (stage : call.stage = .discarding) : Simulates s
    (s.modify c fun call =>
      { call with stage := .failing text, wgOpen := false }) := by
  have engaged : call.phase = .engaged := by rw [Call.phase, stage]; rfl
  have record := owner_of_found found
  rw [owner_of_busy (by rw [engaged]; simp), stage, engaged] at record
  have moved : BookMove s.book
      (s.book.put c { s.book.owner c with phase := .leaving, isOpen := false }) :=
    .yield c (by rw [record]; rfl) (by rw [record]; rfl)
  refine .one ?_
  rw [State.book_modify found, owner_of_busy (by simp [Call.phase, Stage.phase])]
  rw [record] at moved
  exact moved

lemma dropClaim_simulates {text answer} (proper : call.Proper)
    (stage : call.stage = .failing text) :
    Simulates s ((s.goto c (.unwinding answer)).dropClaim call.key) := by
  have leaving : call.phase = .leaving := by rw [phase, stage]; rfl
  have record := owner_of_found found
  rw [owner_of_busy (by rw [leaving]; simp), stage, leaving] at record
  have gone : phase { call with stage := .unwinding answer } = .gone := by
    simp [phase, Stage.phase, proper.undecided (by rw [stage]; rfl)]
  have moved : BookMove s.book ((s.book.advance c .gone).unclaim (s.book.owner c).key) :=
    .release c (by rw [record])
  refine .one ?_
  show BookMove s.book ((s.goto c (.unwinding answer)).book.unclaim call.key)
  rw [State.book_goto found, owner_of_busy (by rw [gone]; simp), gone]
  rw [Book.advance, record] at moved
  exact moved
end

lemma advance_simulates {input} (proper : s.Proper) (found : s.calls[c]? = some call)
    (moved : advance cfg s c call call.stage input = some t) : Simulates s t := by
  have ours := proper c call found
  unfold advance at moved
  split at moved
  · rename_i stage
    cases moved
    have idle : call.phase = .idle := by rw [phase, stage]; rfl
    split_ifs
    · exact .quits found ours idle
    · exact .stays found stage
  · rename_i stage
    cases moved
    exact lookupSection_simulates found ours stage
  · rename_i b stage
    obtain ⟨owner, -, rest⟩ := bind_eq_some_iff.mp moved
    obtain ⟨bond, -, rfl⟩ := map_eq_some_iff.mp rest
    exact .quits found ours (by rw [phase, stage]; rfl)
  · rename_i identity reason stage
    cases moved
    exact authenticate_simulates found _ ours stage
  · rename_i stage
    cases moved
    have claimed : call.phase = .claimed := by rw [phase, stage]; rfl
    split_ifs with stopping
    · exact .fails found ours stage
    · refine .advance found stage ?_
      exact .pass c (owner_phase found claimed (by simp)) (working_of_not_stopping stopping)
  · rename_i stage
    cases moved
    exact retireSection_simulates found stage
  · rename_i stage
    cases moved
    exact .stays found stage
  · rename_i todo b stage
    split_ifs at moved with inside
    obtain ⟨u, started, rfl⟩ := map_eq_some_iff.mp moved
    exact retirePick_simulates found stage inside started
  · rename_i todo b stage
    split_ifs at moved with closed
    cases moved
    exact retireNext_simulates found proper stage closed
  · rename_i env stage
    cases moved
    exact provision_simulates found env ours stage
  · rename_i stage
    cases moved
    have cleared : call.phase = .cleared := by rw [phase, stage]; rfl
    split_ifs with stopping
    · exact .fails found ours stage
    · refine .advance found stage ?_
      refine .ready c (owner_phase found cleared (by simp)) (working_of_not_stopping stopping) ?_
      rw [owner_of_found found, owner_of_busy (by rw [cleared]; simp), stage]
      rfl
  · rename_i ok stage
    split_ifs at moved <;> cases moved
    · exact dial_simulates found ours stage
    · exact .fails found ours stage
  · rename_i stage
    cases moved
    split_ifs <;> exact .stays found stage
  · rename_i stage
    cases moved
    exact discard_simulates found stage
  · rename_i stage
    cases moved
    exact finishBondClaim_simulates found ours stage
  · rename_i text stage
    cases moved
    exact dropClaim_simulates found ours stage
  · rename_i winner stage
    obtain ⟨u, started, rfl⟩ := map_eq_some_iff.mp moved
    rw [State.startClose_eq started]
    exact .modifyBond_stays found stage ServerBond.startClose_socketClosed
  · rename_i winner stage
    split_ifs at moved with closed
    cases moved
    have lost : call.phase = .lost := by rw [phase, stage]; rfl
    refine .advance found stage ?_
    exact .abandon c (owner_phase found lost (by simp)) (shut_of_closeDone proper closed)
  · rename_i winner stage
    cases moved
    refine .stays found stage ?_
    simp [Stage.phase, ours.undecided (by rw [stage]; rfl)]
  · rename_i stage
    cases moved
    exact .modifyBond_stays found stage fun _ => rfl
  · rename_i stage
    obtain ⟨dev, -, rfl⟩ := map_eq_some_iff.mp moved
    have marked : Simulates s
        (s.modify c fun call => { call with stage := .spawning, published := true }) :=
      .unrecorded found stage
    unfold State.publish
    split_ifs <;> exact marked
  · rename_i stage
    cases moved
    exact .modifyBond_stays found stage fun _ => rfl
  · rename_i stage
    cases moved
    exact .unrecorded found stage
  · rename_i answer stage
    cases moved
    refine .unrecorded found stage ?_ ?_ rfl ?_ ?_
    all_goals split_ifs <;> rfl
  · cases moved

lemma memberStep_simulates
    (moved : attachStep s c call = some t ∨ detachStep s c call = some t) : Simulates s t := by
  rcases moved with moved | moved
  all_goals
    simp only [attachStep, detachStep] at moved
    split at moved
    · obtain ⟨bond, -, rfl⟩ := map_eq_some_iff.mp moved
      refine .same ?_
      rw [State.book_modify_same, book_modifyBond]
      · exact fun _ _ => rfl
      · exact fun _ _ => rfl
    · cases moved

lemma deleteSection_simulates {u : State} {key : BondKey} (book : u.book = s.book)
    (shut : (s.book.owner b).shut = true) : Simulates s (u.deleteSection b key) := by
  refine .of_book book ?_
  unfold State.deleteSection
  split_ifs with present
  · exact .one (.remove key b present (by rw [book]; exact shut))
  · exact .same rfl

lemma closeStep_simulates {next : Call} {bond : ServerBond} (proper : s.Proper)
    (found : s.calls[b]? = some call) (present : call.bond = some bond)
    (moved : call.closeStep cfg bond = some next) : Simulates s (s.modify b fun _ => next) := by
  have later := (proper b call found).busy present
  have record := owner_of_found found
  rw [owner_of_busy later] at record
  unfold Call.closeStep at moved
  split at moved
  · cases moved
  · rename_i once
    cases moved
    exact .unrecorded found rfl (by simp [Call.shut, present, once, socketClosed])
  · cases moved
    refine .one ?_
    rw [State.book_modify found, owner_of_busy (by exact later)]
    have shuttered : BookMove s.book
        (s.book.put b { s.book.owner b with isOpen := false, shut := true }) := .shutter b
    rw [record] at shuttered
    exact shuttered
  · rename_i once
    cases moved
    exact .unrecorded found rfl (by simp [Call.shut, present, once, socketClosed])
  · rename_i once
    cases moved
    exact .unrecorded found rfl
      (by simp [Call.notify, Call.shut, present, once, socketClosed])
  · cases moved

lemma bondStep_simulates {bond k} (proper : s.Proper) (found : s.calls[b]? = some call)
    (present : call.bond = some bond) (moved : bondStep cfg s b call bond k = some t) :
    Simulates s t := by
  have here : s.bondAt b = some bond := by simp [State.bondAt, found, present]
  have shut : bond.closeOnce = .done → (s.book.owner b).shut = true := by
    intro done
    exact shut_of_closeDone proper (by simp [State.closeDone, here, done])
  cases k <;> simp only [bondStep] at moved
  case closeStep =>
    obtain ⟨next, stepped, rfl⟩ := map_eq_some_iff.mp moved
    exact closeStep_simulates proper found present stepped
  case fails | fire i =>
    split_ifs at moved
    cases moved
    exact .same (book_modifyBond fun _ _ => rfl)
  case watch | timerClose i =>
    split_ifs at moved
    cases moved
    exact .same (book_modifyBond fun bond _ => bond.startClose_socketClosed)
  case watchRemove | timerRemove i =>
    split_ifs at moved with ready
    cases moved
    exact deleteSection_simulates (book_modifyBond fun _ _ => rfl) (shut ready.2)
  case check i =>
    split at moved
    · split_ifs at moved
      cases moved
      exact .same (book_modifyBond fun _ _ => rfl)
    · cases moved

open Shutdown (list)
section
variable {shutdowns : List Shutdown} {j : Nat} {old new : Shutdown}
lemma listed_iff : Book.Listed (shutdowns.map Shutdown.list) x ↔
    ∃ (i : Nat) (shutdown : Shutdown), shutdowns[i]? = some shutdown ∧ x ∈ shutdown.list := by
  constructor
  · rintro ⟨list, inside, listed⟩
    obtain ⟨shutdown, member, rfl⟩ := List.mem_map.mp inside
    obtain ⟨i, found⟩ := mem_iff_getElem?.mp member
    exact ⟨i, shutdown, found, listed⟩
  · rintro ⟨i, shutdown, found, listed⟩
    exact ⟨shutdown.list, List.mem_map_of_mem (mem_of_getElem? found), listed⟩

lemma listed_set (found : shutdowns[j]? = some old) :
    Book.Listed ((shutdowns.set j new).map list) x ↔
      x ∈ new.list ∨ ∃ (i : Nat) (shutdown : Shutdown), i ≠ j ∧ shutdowns[i]? = some shutdown ∧
        x ∈ shutdown.list := by
  have inside := (List.getElem?_eq_some_iff.mp found).1
  rw [listed_iff]
  constructor
  · rintro ⟨i, shutdown, located, listed⟩
    rw [getElem?_set] at located
    split_ifs at located with same
    · cases located
      exact .inl listed
    · exact .inr ⟨i, shutdown, fun eq => same eq.symm, located, listed⟩
  · rintro (listed | ⟨i, shutdown, other, located, listed⟩)
    · exact ⟨j, new, getElem?_set_self inside, listed⟩
    · exact ⟨i, shutdown, by rwa [getElem?_set_ne fun eq => other eq.symm], listed⟩

lemma cleared_set (found : shutdowns[j]? = some old) (cleared : new.cleared = true) :
    (shutdowns.set j new).any Shutdown.cleared = true := by
  rw [List.any_eq_true]
  exact ⟨new, mem_set (List.getElem?_eq_some_iff.mp found).1 new, cleared⟩

lemma shutdown_forgets (found : s.shutdowns[j]? = some old) (cleared : old.cleared = true)
    (cleared' : new.cleared = true) (fewer : ∀ x ∈ new.list, x ∈ old.list)
    (dropped : ∀ x ∈ old.list, x ∉ new.list → (s.book.owner x).shut = true) :
    Simulates s { s with shutdowns := s.shutdowns.set j new } := by
  have book : State.book { s with shutdowns := s.shutdowns.set j new } =
      { s.book with lists := (s.shutdowns.set j new).map list } := by
    have before : s.shutdowns.any Shutdown.cleared = true :=
      List.any_eq_true.mpr ⟨old, mem_of_getElem? found, cleared⟩
    rw [State.book, State.book, cleared_set found cleared', before]
  refine .one ?_
  rw [book]
  refine .forget _ ?_ ?_
  · intro x listed
    rcases (listed_set found).mp listed with ours | ⟨i, shutdown, -, located, inside⟩
    · exact listed_iff.mpr ⟨j, old, found, fewer x ours⟩
    · exact listed_iff.mpr ⟨i, shutdown, located, inside⟩
  · intro x listed gone
    obtain ⟨i, shutdown, located, inside⟩ := listed_iff.mp listed
    by_cases same : i = j
    · subst same
      rw [found] at located
      cases located
      exact dropped x inside fun kept => gone ((listed_set found).mpr (.inl kept))
    · exact absurd ((listed_set found).mpr (.inr ⟨i, shutdown, same, located, inside⟩)) gone
end

lemma shutdownStep_simulates {j shutdown k} (proper : s.Proper)
    (closed : s.shutdowns ≠ [] → s.bondClosed = true)
    (found : s.shutdowns[j]? = some shutdown) (moved : shutdownStep s j shutdown k = some t) :
    Simulates s t := by
  unfold shutdownStep at moved
  split at moved
  · cases moved
    set new : Shutdown := .closing (valuesAt s.bonds s.bonds.keys) none with newEq
    have book : State.book { s with
        bonds := ∅, bondClaims := ∅, shutdowns := s.shutdowns.set j new } =
          s.book.wipe ((s.shutdowns.set j new).map list) := by
      rw [State.book, cleared_set found rfl]
      rfl
    refine .one ?_
    rw [book]
    refine .clear (closed (ne_nil_of_mem (mem_of_getElem? found))) _ ?_
    intro x
    have collected : x ∈ new.list ↔ ∃ key, s.bonds.lookup key = some x := by
      rw [newEq]
      simp only [list, toList_none, append_nil, mem_valuesAt]
      constructor
      · rintro ⟨key, -, present⟩
        exact ⟨key, present⟩
      · rintro ⟨key, present⟩
        exact ⟨key, mem_keys_iff.mpr ⟨x, present⟩, present⟩
    rw [listed_set found, collected, show s.book.lists = s.shutdowns.map list from rfl, listed_iff]
    constructor
    · rintro (present | ⟨i, other, -, located, inside⟩)
      · exact .inr present
      · exact .inl ⟨i, other, located, inside⟩
    · rintro (⟨i, other, located, inside⟩ | present)
      · refine .inr ⟨i, other, ?_, located, inside⟩
        rintro rfl
        rw [found] at located
        cases located
        simp [list] at inside
      · exact .inl present
  · split_ifs at moved with inside
    obtain ⟨u, started, rfl⟩ := map_eq_some_iff.mp moved
    have shutdownsU : u.shutdowns = s.shutdowns := by
      rw [State.startClose_eq started]
      rfl
    have bookU := State.book_startClose started
    rw [← shutdownsU] at found ⊢
    refine .of_book bookU (shutdown_forgets found rfl rfl ?_ ?_)
    · intro x kept
      simpa [list] using (mem_erase_append inside).mp kept
    · intro x kept gone
      exact absurd ((mem_erase_append inside).mpr (by simpa [list] using kept)) gone
  · split_ifs at moved with done
    cases moved
    refine shutdown_forgets found rfl rfl ?_ ?_
    · intro x kept
      simp only [list, toList_none, append_nil] at kept
      exact mem_append_left _ kept
    · intro x kept gone
      simp only [list, toList_some, mem_append, mem_singleton, toList_none, append_nil] at kept gone
      rcases kept with kept | rfl
      · exact absurd kept gone
      · exact shut_of_closeDone proper done
  · cases moved
    refine shutdown_forgets found rfl rfl ?_ ?_
    · simp [list]
    · simp [list]
  · cases moved

lemma step_simulates {l} (proper : s.Proper) (closed : s.shutdowns ≠ [] → s.bondClosed = true)
    (moved : step cfg s l = some t) : Simulates s t := by
  cases l with
  | acquire bind =>
    cases moved
    refine .same ?_
    rw [State.book, State.book]
    congr 1
    funext i
    rw [getElem?_append]
    split_ifs with inside
    · rfl
    · rw [getElem?_eq_none (Nat.le_of_not_lt inside), getElem?_singleton]
      split_ifs <;> rfl
  | cancel c =>
    cases moved
    exact .same (State.book_modify_same fun _ _ => rfl)
  | advance c input =>
    obtain ⟨call, found, moved⟩ := bind_eq_some_iff.mp moved
    exact advance_simulates proper found moved
  | addWorker c =>
    obtain ⟨call, found, moved⟩ := bind_eq_some_iff.mp moved
    exact memberStep_simulates (.inl moved)
  | removeWorker c =>
    obtain ⟨call, found, moved⟩ := bind_eq_some_iff.mp moved
    exact memberStep_simulates (.inr moved)
  | bond b k =>
    obtain ⟨call, found, rest⟩ := bind_eq_some_iff.mp moved
    obtain ⟨bond, present, moved⟩ := bind_eq_some_iff.mp rest
    exact bondStep_simulates proper found present moved
  | shutdown =>
    cases moved
    have listed : ∀ x, Book.Listed ((s.shutdowns ++ [Shutdown.stored]).map list) x ↔
        Book.Listed (s.shutdowns.map list) x := by
      simp [Book.Listed, list]
    have book : State.book { s with
        bondClosed := true, shutdowns := s.shutdowns ++ [Shutdown.stored] } = { s.book with
            closed := true, lists := (s.shutdowns ++ [Shutdown.stored]).map list } := by
      simp [State.book, Shutdown.cleared]
    unfold Simulates
    rw [book]
    refine (Relation.ReflTransGen.single (.stop (b := s.book))).tail ?_
    refine .forget _ (fun x => (listed x).mp) ?_
    intro x before gone
    exact absurd ((listed x).mpr before) gone
  | shutdownStep j k =>
    obtain ⟨shutdown, found, moved⟩ := bind_eq_some_iff.mp moved
    exact shutdownStep_simulates proper closed found moved
end Tamizdat.Wgturn.Bonds

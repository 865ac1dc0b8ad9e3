import Azaka.Library.Image
import Azaka.Model.Program

namespace Azaka
open Keyed Stepwise Wire

/-- How the host keeps the states of a contract: the cells under the encodings
of their keys, the events as they were published, and what lies beyond. -/
structure Hosting (σ κ β : Type) where
  key : Codec Val κ
  cells : σ → Durability → Store κ Val
  events : σ → List (List Val × Val)
  beyond : σ → β

/-- What is kept, with each value of an entry or an event seen some way. -/
def HostState.seen {β : Type} (see : Val → Val) (w : HostState β) : HostState β where
  entries d key := (w.entries d key).map see
  events := w.events.map (Prod.map id see)
  beyond := w.beyond

theorem HostState.seen_id {β : Type} (w : HostState β) : w.seen id = w := by
  simp [HostState.seen]

/-- Two ways to see things may agree only on what the first leaves alone; then what
is seen the same in both is seen as it is. -/
theorem map_agree_self {α : Type} {f g : α → α} (h : ∀ a, f a = g a → f a = a) {l : List α}
    (hl : l.map f = l.map g) : l.map f = l := by
  have hagree := List.map_inj_left.mp hl
  have hself : ∀ a ∈ l, f a = id a := fun a ha => h a (hagree a ha)
  rw [List.map_congr_left hself, List.map_id]

theorem HostState.seen_agree {β : Type} {f g : Val → Val} (h : ∀ v, f v = g v → f v = v)
    {w : HostState β} (hw : w.seen f = w.seen g) : w.seen f = w := by
  have hentries : ∀ d key, (w.entries d key).map f = w.entries d key := by
    intro d key
    have hkey := congrFun (congrFun (congrArg HostState.entries hw) d) key
    simp only [HostState.seen] at hkey
    cases hv : w.entries d key with
    | none => rfl
    | some v =>
      rw [hv] at hkey
      exact congrArg some (h v (Option.some.inj hkey))
  have hevents : w.events.map (Prod.map id f) = w.events := by
    refine map_agree_self (g := Prod.map id g) ?_ (congrArg HostState.events hw)
    intro e he
    exact Prod.ext rfl (h e.2 (congrArg Prod.snd he))
  simp only [HostState.seen, hentries, hevents]

theorem outcomes_agree {ℓ : Type} {f g : Val → Val} (h : ∀ v, f v = g v → f v = v)
    {os : List (ℓ × Except HostError Val)}
    (hos : os.map (Prod.map id (Except.map f)) = os.map (Prod.map id (Except.map g))) :
    os.map (Prod.map id (Except.map f)) = os := by
  refine map_agree_self (g := Prod.map id (Except.map g)) ?_ hos
  intro o ho
  obtain ⟨l, x⟩ := o
  cases x with
  | error e => rfl
  | ok v => exact congrArg (fun v => (l, Except.ok v)) (h v (Except.ok.inj (congrArg Prod.snd ho)))

namespace Hosting
variable {σ κ β α : Type} (H : Hosting σ κ β)

def stored (s : σ) : HostState β where
  entries d := H.key.layout (H.cells s d)
  events := H.events s
  beyond := H.beyond s

/-- What is kept shows the state, when the cells and the events do. -/
theorem stored_inj
    (h : ∀ s t, H.cells s = H.cells t → H.events s = H.events t → H.beyond s = H.beyond t → s = t)
    {s t : σ} (he : H.stored s = H.stored t) : s = t := by
  have hentries := congrArg HostState.entries he
  refine h s t ?_ (congrArg HostState.events he) (congrArg HostState.beyond he)
  funext d
  exact H.key.layout_inj (congrFun hentries d)

theorem stored_empty {s : σ} (hcells : ∀ d k, H.cells s d k = none) (hevents : H.events s = []) :
    H.stored s = .empty (H.beyond s) := by
  have hentries : (fun d => H.key.layout (H.cells s d)) = fun _ => Store.empty := by
    funext d
    have hempty : H.cells s d = Store.empty := funext (hcells d)
    rw [hempty, H.key.layout_empty]
  simp [stored, HostState.empty, hentries, hevents]

variable {H} {s t : σ} {d : Durability} {k : κ} {c : Codec Val α} {o : Option α}

section Seen
variable {α' : Type} {see : Val → Val} {w : HostState β} {c' : Codec Val α'}

theorem seen_entry (hw : w.seen see = H.stored s) :
    (w.entries d (H.key.encode k)).map see = H.cells s d k := by
  have hentries := congrFun (congrFun (congrArg HostState.entries hw) d) (H.key.encode k)
  exact hentries.trans (H.key.layout_encode _ k)

theorem has_seen (hw : w.seen see = H.stored s) (h : H.cells s d k = o.map c.encode) :
    (Program.has d (H.key.encode k)).run w = .ok (o.isSome, w) := by
  have hentry := (seen_entry (d := d) (k := k) hw).trans h
  have hsome := congrArg Option.isSome hentry
  rw [Option.isSome_map, Option.isSome_map] at hsome
  simp [Program.has, StateT.run, hsome]

/-- What is read is seen as what was written: no conversion traps. -/
theorem get_seen {rd : α' → α} (hw : w.seen see = H.stored s)
    (h : H.cells s d k = o.map c.encode) (hc : ∀ v, c.decode (see v) = (c'.decode v).map rd) :
    ∃ o', (Program.get d (H.key.encode k) c').run w = .ok (o', w) ∧ o'.map rd = o := by
  have hentry := (seen_entry (d := d) (k := k) hw).trans h
  cases hv : w.entries d (H.key.encode k) with
  | none =>
    rw [hv] at hentry
    obtain rfl := Option.map_eq_none_iff.mp hentry.symm
    exact ⟨none, by simp [Program.get, StateT.run, hv], rfl⟩
  | some v =>
    rw [hv] at hentry
    obtain ⟨a, rfl, ha⟩ := Option.map_eq_some_iff.mp hentry.symm
    have hdecode := hc v
    rw [← ha, c.decode_encode] at hdecode
    obtain ⟨a', ha', rfl⟩ := Option.map_eq_some_iff.mp hdecode.symm
    exact ⟨some a', by simp [Program.get, StateT.run, hv, ha'], rfl⟩

/-- So where the values are seen as they are. -/
theorem get_same (hw : w.seen see = H.stored s) (h : H.cells s d k = o.map c.encode)
    (hc : ∀ v, c.decode (see v) = c.decode v) :
    (Program.get d (H.key.encode k) c).run w = .ok (o, w) := by
  have hread : ∀ v, c.decode (see v) = (c.decode v).map id := fun v => by rw [hc, Option.map_id, id]
  obtain ⟨o', hrun, ho⟩ := get_seen hw h hread
  rwa [← ho, Option.map_id]

theorem publish_seen {topics : List Val} {data data' : Val} (hw : w.seen see = H.stored s)
    (hdata : see data' = data) (hcells : H.cells t = H.cells s)
    (hevents : H.events t = H.events s ++ [(topics, data)]) (hbeyond : H.beyond t = H.beyond s) :
    ∃ v, (Program.publish topics data').run w = .ok ((), v) ∧ v.seen see = H.stored t := by
  refine ⟨_, rfl, ?_⟩
  have hkept := congrArg HostState.events hw
  have hentries := congrArg HostState.entries hw
  have hledger := congrArg HostState.beyond hw
  simp only [HostState.seen, stored] at hkept hentries hledger
  simp [HostState.seen, stored, hkept, hentries, hledger, hcells, hevents, hbeyond, hdata]

section Rewrite
variable [DecidableEq κ]

/-- An entry rewritten is a cell rewritten. -/
theorem seen_update {o : Option Val} (hw : w.seen see = H.stored s)
    (hcells : H.cells t = Function.update (H.cells s) d
      (Function.update (H.cells s d) k (o.map see)))
    (hevents : H.events t = H.events s) (hbeyond : H.beyond t = H.beyond s) :
    { w with
      entries := Function.update w.entries d
        (Function.update (w.entries d) (H.key.encode k) o) }.seen see = H.stored t := by
  have hkept := congrArg HostState.events hw
  have hentries := congrArg HostState.entries hw
  have hledger := congrArg HostState.beyond hw
  simp only [HostState.seen, stored] at hkept hentries hledger
  simp only [HostState.seen, stored, HostState.mk.injEq, hkept, hledger, hevents, hbeyond,
    and_self, and_true]
  funext d' key
  have hkey := congrFun (congrFun hentries d') key
  by_cases hd : d' = d
  · subst hd
    rw [Function.update_self, hcells, Function.update_self, ← H.key.layout_update]
    by_cases hk : key = H.key.encode k
    · subst hk
      rw [Function.update_self, Function.update_self]
    · rw [Function.update_of_ne hk, Function.update_of_ne hk, hkey]
  · rw [Function.update_of_ne hd, hcells, Function.update_of_ne hd, hkey]

theorem set_seen {a : α} {a' : α'} (hw : w.seen see = H.stored s)
    (ha : see (c'.encode a') = c.encode a)
    (hcells : H.cells t = Function.update (H.cells s) d ((H.cells s d).set k (c.encode a)))
    (hevents : H.events t = H.events s) (hbeyond : H.beyond t = H.beyond s) :
    ∃ v, (Program.set d (H.key.encode k) c' a').run w = .ok ((), v) ∧ v.seen see = H.stored t :=
  ⟨_, rfl, seen_update (o := some (c'.encode a')) hw (by rw [Option.map_some, ha]; exact hcells)
    hevents hbeyond⟩

end Rewrite
end Seen

theorem has_run (h : H.cells s d k = o.map c.encode) :
    (Program.has d (H.key.encode k)).run (H.stored s) = .ok (o.isSome, H.stored s) :=
  has_seen (H.stored s).seen_id h

/-- What is read is what was written. -/
theorem get_run (h : H.cells s d k = o.map c.encode) :
    (Program.get d (H.key.encode k) c).run (H.stored s) = .ok (o, H.stored s) :=
  get_same (H.stored s).seen_id h fun _ => rfl

theorem publish_run {topics : List Val} {data : Val} (hcells : H.cells t = H.cells s)
    (hevents : H.events t = H.events s ++ [(topics, data)]) (hbeyond : H.beyond t = H.beyond s) :
    (Program.publish topics data).run (H.stored s) = .ok ((), H.stored t) := by
  obtain ⟨v, hrun, hv⟩ := publish_seen (H.stored s).seen_id rfl hcells hevents hbeyond
  rw [v.seen_id] at hv
  rw [hrun, hv]

section Rewrite
variable [DecidableEq κ]

theorem set_run {a : α}
    (hcells : H.cells t = Function.update (H.cells s) d ((H.cells s d).set k (c.encode a)))
    (hevents : H.events t = H.events s) (hbeyond : H.beyond t = H.beyond s) :
    (Program.set d (H.key.encode k) c a).run (H.stored s) = .ok ((), H.stored t) := by
  have hsame : id (c.encode a) = c.encode a := rfl
  obtain ⟨v, hrun, hv⟩ := set_seen (H.stored s).seen_id hsame hcells hevents hbeyond
  rw [v.seen_id] at hv
  rw [hrun, hv]

theorem remove_run
    (hcells : H.cells t = Function.update (H.cells s) d ((H.cells s d).remove k))
    (hevents : H.events t = H.events s) (hbeyond : H.beyond t = H.beyond s) :
    (Program.remove d (H.key.encode k)).run (H.stored s) = .ok ((), H.stored t) := by
  have hv := seen_update (o := none) (H.stored s).seen_id hcells hevents hbeyond
  rw [HostState.seen_id] at hv
  exact congrArg (fun w => Except.ok ((), w)) hv

end Rewrite

section Follows
variable {ε δ γ : Type} (H : Hosting σ κ β) (view : HostState β → HostState β)
variable (fault : Fault ε → HostError)

/-- What the program does is seen as what the model does, down to the answer, the
refusal and what is kept. -/
def Follows (say : α → γ) (out : δ → γ × σ) (p : Program β α) (w : HostState β)
    (x : Except (Fault ε) δ) : Prop :=
  (p.run w).map (Prod.map say view) = hosted fault (fun d => ((out d).1, H.stored (out d).2)) x

/-- The program answers what the model answers, and leaves all as it is. -/
def Looks (say : α → γ) (p : Program β α) (w : HostState β) (x : Except (Fault ε) γ) : Prop :=
  (p.run w).map (Prod.map say id) = hosted fault (fun a => (a, w)) x

/-- So with all values read as they are. -/
abbrev Keeps (code : ε → UInt32) (subcall : HostError) (out : δ → α × σ) (p : Program β α)
    (s : σ) (x : Except (Fault ε) δ) : Prop :=
  H.Follows id (Fault.host code subcall) id out p (H.stored s) x

variable {H view fault} {γ' δ' : Type} {w v : HostState β} {say : α → γ} {out : δ → γ × σ}

theorem Follows.look {α' ζ : Type} {rd : α' → ζ} {p : Program β α'} {f : α' → Program β α}
    {x : Except (Fault ε) ζ} {g : ζ → Except (Fault ε) δ} (hp : Looks fault rd p w x)
    (hf : ∀ c, x = .ok (rd c) → H.Follows view fault say out (f c) w (g (rd c))) :
    H.Follows view fault say out (p >>= f) w (x >>= g) := by
  unfold Follows
  rcases hosted_cases hp with ⟨⟨c, v⟩, d, hrun, rfl, heq⟩ | ⟨e, hrun, rfl⟩
  · obtain ⟨hc, hv⟩ := Prod.mk.inj heq
    obtain rfl : rd c = d := hc
    obtain rfl : v = w := hv
    rw [Program.run_ok hrun]
    exact hf c rfl
  · rw [Program.run_error hrun]
    rfl

/-- A step of the program that the model does not make by itself. -/
theorem Follows.step {α' : Type} {p : Program β α'} {f : α' → Program β α} {c : α'}
    {y : Except (Fault ε) δ} (hp : p.run w = .ok (c, v))
    (hf : H.Follows view fault say out (f c) v y) :
    H.Follows view fault say out (p >>= f) w y := by
  unfold Follows
  rw [Program.run_ok hp]
  exact hf

/-- A step of the program that is seen as one between states of the model. -/
theorem Follows.write {p : Program β Unit} {f : Unit → Program β α} {s : σ}
    {y : Except (Fault ε) δ} (hp : ∃ v, p.run w = .ok ((), v) ∧ view v = H.stored s)
    (hf : ∀ v, view v = H.stored s → H.Follows view fault say out (f ()) v y) :
    H.Follows view fault say out (p >>= f) w y := by
  obtain ⟨v, hrun, hv⟩ := hp
  exact .step hrun (hf v hv)

/-- The last step, seen as the state the model ends in. -/
theorem Follows.done {p : Program β Unit} {s : σ} (hp : p.run w = .ok ((), v))
    (hv : view v = H.stored s) : H.Follows view fault id ((), ·) p w (.ok s) := by
  unfold Follows
  rw [hp]
  exact congrArg (fun v => Except.ok ((), v)) hv

theorem Follows.written {p : Program β Unit} {s : σ}
    (hp : ∃ v, p.run w = .ok ((), v) ∧ view v = H.stored s) :
    H.Follows view fault id ((), ·) p w (.ok s) := by
  obtain ⟨v, hrun, hv⟩ := hp
  exact .done hrun hv

theorem Follows.ends {a : α} {d : δ} (ha : say a = (out d).1)
    (hv : view v = H.stored (out d).2) :
    H.Follows view fault say out (pure a) v (.ok d) :=
  congrArg Except.ok (Prod.ext ha hv)

/-- `return Err(e)` when the check fails. -/
theorem Follows.guard {code : ε → UInt32} {subcall : HostError} {c : Prop} [Decidable c]
    {b : Bool} {e : ε} {f : Unit → Program β α} {g : Unit → Except (Fault ε) δ}
    (hc : c ↔ b = false)
    (hf : b = true → H.Follows view (Fault.host code subcall) say out (f ()) w (g ())) :
    H.Follows view (Fault.host code subcall) say out
      (if c then (Program.fail (code e) >>= fun u => f u) else f ()) w
      (ensure b e >>= g) := by
  cases b with
  | true =>
    rw [if_neg (fun h => by simpa using hc.mp h)]
    exact hf rfl
  | false =>
    rw [if_pos (hc.mpr rfl)]
    rfl

/-- The program's value is passed on, and so is the model's. -/
theorem Follows.renders {p : Program β α} {x : Except (Fault ε) δ}
    (hp : H.Follows view fault say out p w x) {ζ : Type} {k : α → ζ} {q : γ → γ'}
    {say' : ζ → γ'} {out' : δ' → γ' × σ} {f : δ → δ'} (hk : ∀ a, say' (k a) = q (say a))
    (h : ∀ d, out' (f d) = (q (out d).1, (out d).2)) :
    H.Follows view fault say' out' (p >>= fun a => pure (k a)) w (x.map f) := by
  unfold Follows
  rcases hosted_cases hp with ⟨⟨a, v⟩, d, hrun, rfl, heq⟩ | ⟨e, hrun, rfl⟩
  · obtain ⟨ha, hv⟩ := Prod.mk.inj heq
    rw [Program.run_ok hrun]
    refine congrArg Except.ok (Prod.ext ?_ ?_)
    · exact (hk a).trans ((congrArg q ha).trans (congrArg Prod.fst (h d)).symm)
    · exact hv.trans (congrArg (fun o => H.stored o.2) (h d)).symm
  · rw [Program.run_error hrun]
    rfl

theorem Follows.returns {out : δ → α × σ} {p : Program β α} {x : Except (Fault ε) δ}
    (hp : H.Follows view fault id out p w x) {k : α → γ} {out' : δ' → γ × σ} {f : δ → δ'}
    (h : ∀ d, out' (f d) = (k (out d).1, (out d).2)) :
    H.Follows view fault id out' (p >>= fun a => pure (k a)) w (x.map f) :=
  hp.renders (q := k) (fun _ => rfl) h

/-- A program that looks only. -/
theorem Looks.follows {s : σ} {p : Program β α} {x : Except (Fault ε) γ}
    (hp : Looks fault say p w x) (hw : view w = H.stored s) :
    H.Follows view fault say (fun a => (a, s)) p w x := by
  unfold Follows
  rcases hosted_cases hp with ⟨⟨a, v⟩, c, hrun, rfl, heq⟩ | ⟨e, hrun, rfl⟩
  · obtain ⟨ha, hv⟩ := Prod.mk.inj heq
    obtain rfl : v = w := hv
    rw [hrun]
    exact congrArg Except.ok (Prod.ext ha hw)
  · rw [hrun]
    rfl

theorem Looks.returns {s : σ} {p : Program β α} {x : Except (Fault ε) α}
    (hp : Looks fault id p w x) (hw : view w = H.stored s) {k : α → γ} {out' : δ' → γ × σ}
    {f : α → δ'} (h : ∀ a, out' (f a) = (k a, s)) :
    H.Follows view fault id out' (p >>= fun a => pure (k a)) w (x.map f) :=
  (hp.follows hw).returns h

theorem Looks.step {α' : Type} {p : Program β α'} {f : α' → Program β α} {c : α'}
    {y : Except (Fault ε) γ} (hp : p.run w = .ok (c, w)) (hf : Looks fault say (f c) w y) :
    Looks fault say (p >>= f) w y := by
  unfold Looks
  rw [Program.run_ok hp]
  exact hf

variable {code : ε → UInt32} {subcall : HostError}

theorem looks_require_auth (env : Env) (a : Address) :
    Looks (Fault.host code subcall) id (Program.requireAuth env a) w (env.requireAuth a) := by
  unfold Looks Program.requireAuth Env.requireAuth StateT.run
  cases env.auth a <;> rfl

theorem looks_unwrap (o : Option α) :
    Looks (Fault.host code subcall) id (Program.unwrap o) w (unwrap o) := by
  cases o <;> rfl

theorem looks_ok_or (e : ε) (o : Option α) :
    Looks (Fault.host code subcall) id (Program.okOr (code e) o) w (okOr e o) := by
  cases o <;> rfl

/-- So where the model's value is only read off the program's. -/
theorem looks_map_or (rd : α → γ) (e : ε) (o : Option α) :
    Looks (Fault.host code subcall) rd (Program.okOr (code e) o) w (okOr e (o.map rd)) := by
  cases o <;> rfl

theorem looks_add (a b : UInt64) :
    Looks (Fault.host code subcall) id (Program.addU64 a b) w (checkedAdd a b) := by
  unfold Looks Program.addU64 checkedAdd
  split <;> rfl

end Follows

/-- The answer the host gets, and the state the model ends in. -/
theorem Follows.answer {ε ρ : Type} {H : Hosting σ κ β} {view : HostState β → HostState β}
    {fault : Fault ε → HostError} {say : α → Val} {val : ρ → Val} {p : Program β α}
    {w : HostState β} {x : Except (Fault ε) (ρ × σ)}
    (h : H.Follows view fault say (Prod.map val id) p w x) :
    (p.run w).map (Prod.map say view) =
      ((x.map (Prod.map val id)).mapError fault).map (Prod.map id H.stored) := by
  refine Eq.trans h ?_
  cases x <;> rfl

/-- Arguments that can be read in full may be read by the host's wrapper first. -/
theorem read_args_eq {κ' κ'' : Type} {interface : Codec (String × List ScVal) κ''}
    {hostInterface : Codec (String × List Val) κ'} {unread : κ'' → κ'}
    {reread : κ' → Option κ''} (inverse : ∀ c d, reread c = some d ↔ unread d = c)
    (h : ∀ c, hostInterface.encode (unread c) =
      ((interface.encode c).1, Val.ofElements (interface.encode c).2))
    (tx : Tx (String × List Val)) :
    readArgs interface tx = (Tx.read hostInterface.decode tx).bind (Tx.read reread) := by
  rw [readArgs, read_bind]
  refine congrArg (Tx.read · tx) (funext fun call => Option.ext fun d => ?_)
  simp only [Option.bind_eq_some_iff, interface.exact, inverse, exists_eq_right',
    hostInterface.exact, h, Val.to_elements]
  constructor
  · intro hread
    obtain ⟨args, hargs, hcall⟩ := hread
    rw [hcall, hargs]
  · intro hcall
    refine ⟨(interface.encode d).2, congrArg Prod.snd hcall, ?_⟩
    rw [← hcall]

section Image
variable {κ' : Type} {H : Hosting σ κ β} {view : HostState β → HostState β} {say : Val → Val}
variable {program : Env → κ' → Program β Val}
variable (read : Tx (String × List Val) → Option (Tx κ')) (self : Address)

/-- A contract is seen as what its programs are seen as, behind the reading of
arguments. -/
theorem image (m : Machine σ (Tx κ') Val HostError)
    (h : ∀ tx s w, view w = H.stored s →
      ((program (tx.env self) tx.call).run w).map (Prod.map say view) =
        (m.exec tx s).map (Prod.map id H.stored)) :
    (m.behind read .trapped).Image (serve read program self) H.stored view say := by
  refine ⟨?_⟩
  intro s w tx hw
  simp only [serve, Machine.behind]
  cases read tx with
  | none => rfl
  | some tx => exact h tx s w hw

/-- So for a contract that calls no other, with all values read as they are. -/
theorem keeps_image {ε ρ : Type} {code : ε → UInt32} {val : ρ → Val}
    {exec : Env → σ → κ' → Except (Fault ε) (ρ × σ)}
    (h : ∀ env c s, H.Keeps code .trapped (Prod.map val id) (program env c) s (exec env s c)) :
    (((Machine.mk fun (tx : Tx κ') s => exec (tx.env self) s tx.call).translated val
      fun _ _ => Fault.host code .trapped).behind read .trapped).Image
      (serve read program self) H.stored id id := by
  refine image read self _ ?_
  intro tx s w hw
  obtain rfl : w = H.stored s := hw
  exact (h (tx.env self) tx.call s).answer

end Image
end Hosting
end Azaka

import Mathlib.Tactic.TypeStar

namespace Wire

/-- An encoding, and a decoder that accepts what it produces and nothing else. -/
structure Codec (ω α : Type*) where
  encode : α → ω
  decode : ω → Option α
  exact : ∀ w a, decode w = some a ↔ encode a = w

namespace Codec
variable {ω υ κ α β : Type*}

@[simp] theorem decode_encode (c : Codec ω α) (a : α) : c.decode (c.encode a) = some a :=
  (c.exact _ a).mpr rfl

/-- What is not an encoding is refused. -/
theorem decode_eq_none {c : Codec ω α} {w : ω} (h : ∀ a, c.encode a ≠ w) : c.decode w = none := by
  cases hd : c.decode w with
  | none => rfl
  | some a => exact absurd ((c.exact w a).mp hd) (h a)

theorem map_decode {c : Codec ω α} {f : α → β} {w : ω} {b : β} :
    (c.decode w).map f = some b ↔ ∃ a, c.encode a = w ∧ f a = b := by
  simp only [Option.map_eq_some_iff, c.exact]

/-- An encoding of an encoding. -/
def comp (c : Codec ω υ) (d : Codec υ α) : Codec ω α where
  encode a := c.encode (d.encode a)
  decode w := (c.decode w).bind d.decode
  exact w a := by
    simp only [Option.bind_eq_some_iff, c.exact, d.exact]
    constructor
    · intro h
      obtain ⟨v, rfl, rfl⟩ := h
      rfl
    · intro h
      exact ⟨d.encode a, h, rfl⟩

/-- The same words for a type that has as much to say. -/
def iso (c : Codec ω α) (pack : α → β) (unpack : β → α) (pack_unpack : ∀ b, pack (unpack b) = b)
    (unpack_pack : ∀ a, unpack (pack a) = a) : Codec ω β where
  encode b := c.encode (unpack b)
  decode w := (c.decode w).map pack
  exact w b := by
    rw [map_decode]
    constructor
    · intro h
      obtain ⟨a, rfl, rfl⟩ := h
      rw [unpack_pack]
    · intro h
      exact ⟨unpack b, h, pack_unpack b⟩

/-- The values of a finite kind, each by its name. -/
def named [DecidableEq ω] (name : α → ω) (all : List α) (complete : ∀ a, a ∈ all)
    (distinct : ∀ a b, name a = name b → a = b) : Codec ω α where
  encode := name
  decode w := all.find? fun a => name a == w
  exact w a := by
    constructor
    · intro h
      simpa using List.find?_some h
    · intro h
      subst h
      cases hf : all.find? fun b => name b == name a with
      | none => exact absurd (List.find?_eq_none.mp hf a (complete a)) (by simp)
      | some b =>
        have hname : name b = name a := by simpa using List.find?_some hf
        rw [distinct b a hname]

/-- One field of a record, under its key. -/
def field [DecidableEq κ] (c : Codec ω α) (key : κ) : Codec (κ × ω) α where
  encode a := (key, c.encode a)
  decode e := if e.1 = key then c.decode e.2 else none
  exact e a := by
    obtain ⟨k, w⟩ := e
    by_cases h : k = key
    · simp [h, c.exact]
    · simp [h, Ne.symm h]

/-- One word, as a list of them. -/
def one (c : Codec ω α) : Codec (List ω) α where
  encode a := [c.encode a]
  decode
    | [w] => c.decode w
    | _ => none
  exact ws a := by
    cases ws with
    | nil => simp
    | cons w ws => cases ws <;> simp [c.exact]

def cons (c : Codec ω α) (d : Codec (List ω) β) : Codec (List ω) (α × β) where
  encode p := c.encode p.1 :: d.encode p.2
  decode
    | [] => none
    | w :: ws => (c.decode w).bind fun a => (d.decode ws).map fun b => (a, b)
  exact ws p := by
    cases ws with
    | nil => simp
    | cons w ws =>
      simp only [Option.bind_eq_some_iff, Option.map_eq_some_iff, c.exact, d.exact]
      constructor
      · intro h
        obtain ⟨a, rfl, b, rfl, rfl⟩ := h
        rfl
      · intro h
        obtain ⟨hw, hws⟩ := List.cons.inj h
        exact ⟨p.1, hw, p.2, hws, rfl⟩

def decodeList (c : Codec ω α) : List ω → Option (List α)
  | [] => some []
  | w :: ws => (c.decode w).bind fun a => (decodeList c ws).map fun as => a :: as

def list (c : Codec ω α) : Codec (List ω) (List α) where
  encode := List.map c.encode
  decode := c.decodeList
  exact ws as := by
    induction ws generalizing as with
    | nil => cases as <;> simp [decodeList]
    | cons w ws ih =>
      simp only [decodeList, Option.bind_eq_some_iff, Option.map_eq_some_iff, c.exact]
      constructor
      · intro h
        obtain ⟨a, rfl, rest, hrest, rfl⟩ := h
        rw [List.map_cons, (ih rest).mp hrest]
      · intro h
        cases as with
        | nil => cases h
        | cons a as =>
          obtain ⟨hw, hws⟩ := List.cons.inj h
          exact ⟨a, hw, as, (ih as).mpr hws, rfl⟩

end Codec
end Wire

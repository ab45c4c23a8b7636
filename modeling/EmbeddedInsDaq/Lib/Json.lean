import Mathlib.Data.List.Basic
import Mathlib.Tactic.SplitIfs

/-!
# JSON text

The text that Python's `json.dumps` makes of a value with `indent=2`: an element to a line, an
object as its entries in the order they are given. For values whose strings need no escapes the
text determines the value (`dumps_injective`): no text is the front of another one, up to a
character that can follow a value.
-/

/-- A JSON value: a natural number, a string, an array or an object. -/
inductive Json
  | int (n : ℕ)
  | str (s : List Char)
  | arr (values : List Json)
  | obj (entries : List (List Char × Json))

namespace Json

/-! ## Writing -/

/-- `\u` and four digits. -/
def unicodeEscape (n : ℕ) : List Char :=
  ['\\', 'u', (n / 4096 % 16).digitChar, (n / 256 % 16).digitChar, (n / 16 % 16).digitChar,
    (n % 16).digitChar]

/-- A character in a string that is written in ASCII. -/
def escape (c : Char) : List Char :=
  if c = '\\' then ['\\', '\\']
  else if c = '"' then ['\\', '"']
  else if ' ' ≤ c ∧ c ≤ '~' then [c]
  else if c = '\n' then ['\\', 'n']
  else if c = '\r' then ['\\', 'r']
  else if c = '\t' then ['\\', 't']
  else if c = '\x0c' then ['\\', 'f']
  else if c = '\x08' then ['\\', 'b']
  else if c.toNat < 0x10000 then unicodeEscape c.toNat
  else unicodeEscape (0xd800 + (c.toNat - 0x10000) / 0x400) ++
    unicodeEscape (0xdc00 + (c.toNat - 0x10000) % 0x400)

/-- A string between its quotes. -/
def quote (s : List Char) : List Char := '"' :: (s.flatMap escape ++ ['"'])

/-- The end of a line, and the indent of the next one. -/
def newline (level : ℕ) : List Char := '\n' :: List.replicate (2 * level) ' '

mutual

/-- The text of a value whose last line is indented by `level`. -/
def dumps (level : ℕ) : Json → List Char
  | .int n => (toString n).toList
  | .str s => quote s
  | .arr [] => ['[', ']']
  | .arr (v :: vs) =>
    '[' :: (newline (level + 1) ++ (dumps (level + 1) v ++
      (dumpsValues (level + 1) vs ++ (newline level ++ [']']))))
  | .obj [] => ['{', '}']
  | .obj ((k, v) :: entries) =>
    '{' :: (newline (level + 1) ++ (quote k ++ (':' :: ' ' :: (dumps (level + 1) v ++
      (dumpsEntries (level + 1) entries ++ (newline level ++ ['}']))))))

/-- The elements of an array, behind the first one. -/
def dumpsValues (level : ℕ) : List Json → List Char
  | [] => []
  | v :: vs => ',' :: (newline level ++ (dumps level v ++ dumpsValues level vs))

/-- The entries of an object, behind the first one. -/
def dumpsEntries (level : ℕ) : List (List Char × Json) → List Char
  | [] => []
  | (k, v) :: entries =>
    ',' :: (newline level ++ (quote k ++ (':' :: ' ' :: (dumps level v ++
      dumpsEntries level entries))))

end

/-! ## Values without escapes -/

/-- A character that stands for itself in a string. -/
def PlainChar (c : Char) : Prop := ' ' ≤ c ∧ c ≤ '~' ∧ c ≠ '"' ∧ c ≠ '\\'

instance : DecidablePred PlainChar := fun _ => inferInstanceAs (Decidable (_ ∧ _ ∧ _ ∧ _))

/-- A string that is written as it is. -/
def PlainText (s : List Char) : Prop := ∀ c ∈ s, PlainChar c

-- by the characters of the text, not by all characters there are
instance : DecidablePred PlainText := fun s => List.decidableBAll PlainChar s

theorem plainChar_of_isDigit {c : Char} (h : c.isDigit = true) : PlainChar c := by
  rw [Char.isDigit, Bool.and_eq_true, decide_eq_true_eq, decide_eq_true_eq] at h
  have hlow : ' ' ≤ c := Char.le_trans (by decide : ' ' ≤ '0') h.1
  have hhigh : c ≤ '~' := Char.le_trans h.2 (by decide : '9' ≤ '~')
  refine ⟨hlow, hhigh, ?_, ?_⟩
  · rintro rfl
    exact absurd h.1 (by decide)
  · rintro rfl
    exact absurd h.2 (by decide)

mutual

/-- A value all of whose strings are written as they are. -/
def Plain : Json → Prop
  | .int _ => True
  | .str s => PlainText s
  | .arr vs => PlainValues vs
  | .obj entries => PlainEntries entries

def PlainValues : List Json → Prop
  | [] => True
  | v :: vs => Plain v ∧ PlainValues vs

def PlainEntries : List (List Char × Json) → Prop
  | [] => True
  | (k, v) :: entries => PlainText k ∧ Plain v ∧ PlainEntries entries

end

theorem escape_of_plain {c : Char} (h : PlainChar c) : escape c = [c] := by
  obtain ⟨hlow, hhigh, hquote, hslash⟩ := h
  rw [escape, if_neg hslash, if_neg hquote, if_pos ⟨hlow, hhigh⟩]

theorem quote_of_plain {s : List Char} (h : PlainText s) : quote s = '"' :: (s ++ ['"']) := by
  have hself : s.flatMap escape = s := by
    induction s with
    | nil => rfl
    | cons c s ih =>
      rw [List.flatMap_cons, escape_of_plain (h c List.mem_cons_self),
        ih fun d hd => h d (List.mem_cons_of_mem c hd)]
      rfl
  rw [quote, hself]

/-! ## Reading off the front -/

section Front

variable {s s' k k' : List Char} {level : ℕ}

/-- Characters that all have a property, up to one that has not. -/
theorem append_inj_of_forall {α : Type*} {p : α → Bool} {xs xs' ys ys' : List α}
    (hxs : ∀ x ∈ xs, p x = true) (hxs' : ∀ x ∈ xs', p x = true)
    (hys : ∀ y, ys.head? = some y → p y = false) (hys' : ∀ y, ys'.head? = some y → p y = false)
    (h : xs ++ ys = xs' ++ ys') : xs = xs' ∧ ys = ys' := by
  have hstop : ∀ {ys : List α}, (∀ y, ys.head? = some y → p y = false) →
      ys.takeWhile p = [] := by
    intro ys hys
    cases ys with
    | nil => rfl
    | cons y ys => rw [List.takeWhile_cons, if_neg (by simp [hys y rfl])]
  have heq : xs = xs' := by
    have hwhile := congrArg (List.takeWhile p) h
    rwa [List.takeWhile_append_of_pos hxs, List.takeWhile_append_of_pos hxs', hstop hys,
      hstop hys', List.append_nil, List.append_nil] at hwhile
  subst heq
  exact ⟨rfl, List.append_cancel_left h⟩

/-- What can follow a value: nothing, or a character that is in no number. -/
def Ends (s : List Char) : Prop := ∀ c, s.head? = some c → c.isDigit = false

theorem ends_nil : Ends [] := nofun

theorem ends_cons {c : Char} (h : c.isDigit = false) : Ends (c :: s) := by
  rintro d hd
  rw [← Option.some.inj hd, h]

theorem quote_append_inj (hk : PlainText k) (hk' : PlainText k')
    (h : quote k ++ s = quote k' ++ s') : k = k' ∧ s = s' := by
  have hinside : ∀ {k : List Char}, PlainText k → ∀ c ∈ k, (c != '"') = true := fun hk c hc =>
    bne_iff_ne.mpr (hk c hc).2.2.1
  have hquote : ∀ {s : List Char} c, ('"' :: s).head? = some c → (c != '"') = false := by
    rintro s c hc
    cases hc
    decide
  rw [quote_of_plain hk, quote_of_plain hk'] at h
  simp only [List.cons_append, List.append_assoc, List.nil_append, List.cons.injEq, true_and] at h
  obtain ⟨rfl, hrest⟩ := append_inj_of_forall (hinside hk) (hinside hk') hquote hquote h
  exact ⟨rfl, (List.cons.inj hrest).2⟩

theorem toList_toString (n : ℕ) : (toString n).toList = Nat.toDigits 10 n := by
  rw [Nat.toString_eq_ofList_toDigits, String.toList_ofList]

theorem isDigit_of_mem_toString {n : ℕ} {c : Char} (h : c ∈ (toString n).toList) :
    c.isDigit = true := by
  rw [toList_toString] at h
  exact Nat.isDigit_of_mem_toDigits (by decide) (by decide) h

theorem int_append_inj {n n' : ℕ} (hs : Ends s) (hs' : Ends s')
    (h : (toString n).toList ++ s = (toString n').toList ++ s') : n = n' ∧ s = s' := by
  have hdigits : ∀ n : ℕ, ∀ c ∈ (toString n).toList, c.isDigit = true := fun _ _ =>
    isDigit_of_mem_toString
  obtain ⟨hn, rfl⟩ := append_inj_of_forall (hdigits n) (hdigits n') hs hs' h
  refine ⟨?_, rfl⟩
  have hvalue := congrArg (Nat.ofDigitChars 10 · 0) hn
  simpa [toList_toString] using hvalue

/-- What kind of value a text starts like. -/
def startKind (c : Char) : ℕ :=
  if c.isDigit then 0 else if c = '"' then 1 else if c = '[' then 2 else 3

/-- The kind of a value. -/
def kind : Json → ℕ
  | .int _ => 0
  | .str _ => 1
  | .arr _ => 2
  | .obj _ => 3

theorem exists_start (level : ℕ) (v : Json) :
    ∃ c rest, dumps level v = c :: rest ∧ startKind c = kind v := by
  match v with
  | .int n =>
    have hne : Nat.toDigits 10 n ≠ [] := List.ne_nil_of_length_pos Nat.length_toDigits_pos
    obtain ⟨c, rest, hdigits⟩ := List.exists_cons_of_ne_nil hne
    have hc : c.isDigit = true := Nat.isDigit_of_mem_toDigits (by decide) (by decide)
      (hdigits ▸ List.mem_cons_self : c ∈ Nat.toDigits 10 n)
    exact ⟨c, rest, (toList_toString n).trans hdigits, if_pos hc⟩
  | .str s => exact ⟨_, _, rfl, rfl⟩
  | .arr [] => exact ⟨_, _, rfl, rfl⟩
  | .arr (v :: vs) => exact ⟨_, _, rfl, rfl⟩
  | .obj [] => exact ⟨_, _, rfl, rfl⟩
  | .obj ((k, v) :: entries) => exact ⟨_, _, rfl, rfl⟩

theorem kind_eq_of_append {v v' : Json} (h : dumps level v ++ s = dumps level v' ++ s') :
    kind v = kind v' := by
  obtain ⟨c, rest, hstart, hc⟩ := exists_start level v
  obtain ⟨c', rest', hstart', hc'⟩ := exists_start level v'
  rw [hstart, hstart'] at h
  rw [← hc, ← hc', (List.cons.inj h).1]

theorem ends_dumpsValues (vs : List Json) : Ends (dumpsValues level vs ++ '\n' :: s) := by
  cases vs with
  | nil => exact ends_cons rfl
  | cons v vs => exact ends_cons rfl

theorem ends_dumpsEntries (entries : List (List Char × Json)) :
    Ends (dumpsEntries level entries ++ '\n' :: s) := by
  match entries with
  | [] => exact ends_cons rfl
  | (k, v) :: entries => exact ends_cons rfl

end Front

mutual

theorem dumps_append_inj : ∀ {v v' : Json} {level : ℕ} {s s' : List Char}, Plain v → Plain v' →
    Ends s → Ends s' → dumps level v ++ s = dumps level v' ++ s' → v = v' ∧ s = s'
  | .int n, v', _, s, s', _, _, hs, hs', h => by
    cases v' with
    | int n' =>
      simp only [dumps] at h
      obtain ⟨rfl, rfl⟩ := int_append_inj hs hs' h
      exact ⟨rfl, rfl⟩
    | _ => exact nomatch kind_eq_of_append h
  | .str t, v', _, s, s', hv, hv', _, _, h => by
    cases v' with
    | str t' =>
      simp only [dumps] at h
      obtain ⟨rfl, rfl⟩ := quote_append_inj hv hv' h
      exact ⟨rfl, rfl⟩
    | _ => exact nomatch kind_eq_of_append h
  | .arr [], v', _, s, s', _, _, _, _, h => by
    match v' with
    | .arr [] => exact ⟨rfl, List.append_cancel_left h⟩
    | .arr (_ :: _) => simp [dumps, newline] at h
    | .int _ | .str _ | .obj _ => exact nomatch kind_eq_of_append h
  | .arr (v :: vs), v', level, s, s', hv, hv', _, _, h => by
    match v' with
    | .arr [] => simp [dumps, newline] at h
    | .arr (v' :: vs') =>
      simp only [dumps, newline, List.cons_append, List.append_assoc, List.cons.injEq, true_and,
        List.append_cancel_left_eq] at h
      obtain ⟨rfl, hrest⟩ := dumps_append_inj hv.1 hv'.1 (ends_dumpsValues vs)
        (ends_dumpsValues vs') h
      obtain ⟨rfl, htail⟩ := dumpsValues_append_inj hv.2 hv'.2 hrest
      exact ⟨rfl, (List.cons.inj (List.append_cancel_left htail)).2⟩
    | .int _ | .str _ | .obj _ => exact nomatch kind_eq_of_append h
  | .obj [], v', _, s, s', _, _, _, _, h => by
    match v' with
    | .obj [] => exact ⟨rfl, List.append_cancel_left h⟩
    | .obj ((_, _) :: _) => simp [dumps, newline] at h
    | .int _ | .str _ | .arr _ => exact nomatch kind_eq_of_append h
  | .obj ((k, v) :: entries), v', level, s, s', hv, hv', _, _, h => by
    match v' with
    | .obj [] => simp [dumps, newline] at h
    | .obj ((k', v') :: entries') =>
      simp only [dumps, newline, List.cons_append, List.append_assoc, List.cons.injEq, true_and,
        List.append_cancel_left_eq] at h
      obtain ⟨rfl, hvalue⟩ := quote_append_inj hv.1 hv'.1 h
      simp only [List.cons.injEq, true_and] at hvalue
      obtain ⟨rfl, hrest⟩ := dumps_append_inj hv.2.1 hv'.2.1 (ends_dumpsEntries entries)
        (ends_dumpsEntries entries') hvalue
      obtain ⟨rfl, htail⟩ := dumpsEntries_append_inj hv.2.2 hv'.2.2 hrest
      exact ⟨rfl, (List.cons.inj (List.append_cancel_left htail)).2⟩
    | .int _ | .str _ | .arr _ => exact nomatch kind_eq_of_append h

theorem dumpsValues_append_inj : ∀ {vs vs' : List Json} {level : ℕ} {s s' : List Char},
    PlainValues vs → PlainValues vs' →
    dumpsValues level vs ++ '\n' :: s = dumpsValues level vs' ++ '\n' :: s' → vs = vs' ∧ s = s'
  | [], [], _, _, _, _, _, h => ⟨rfl, (List.cons.inj h).2⟩
  | [], _ :: _, _, _, _, _, _, h => absurd (List.cons.inj h).1 (by decide)
  | _ :: _, [], _, _, _, _, _, h => absurd (List.cons.inj h).1 (by decide)
  | v :: vs, v' :: vs', level, s, s', hvs, hvs', h => by
    simp only [dumpsValues, List.cons_append, List.append_assoc, List.cons.injEq, true_and,
      List.append_cancel_left_eq] at h
    obtain ⟨rfl, hrest⟩ := dumps_append_inj hvs.1 hvs'.1 (ends_dumpsValues vs)
      (ends_dumpsValues vs') h
    obtain ⟨rfl, rfl⟩ := dumpsValues_append_inj hvs.2 hvs'.2 hrest
    exact ⟨rfl, rfl⟩

theorem dumpsEntries_append_inj : ∀ {es es' : List (List Char × Json)} {level : ℕ}
    {s s' : List Char}, PlainEntries es → PlainEntries es' →
    dumpsEntries level es ++ '\n' :: s = dumpsEntries level es' ++ '\n' :: s' → es = es' ∧ s = s'
  | [], [], _, _, _, _, _, h => ⟨rfl, (List.cons.inj h).2⟩
  | [], (_, _) :: _, _, _, _, _, _, h => absurd (List.cons.inj h).1 (by decide)
  | (_, _) :: _, [], _, _, _, _, _, h => absurd (List.cons.inj h).1 (by decide)
  | (k, v) :: es, (k', v') :: es', level, s, s', hes, hes', h => by
    simp only [dumpsEntries, List.cons_append, List.append_assoc, List.cons.injEq, true_and,
      List.append_cancel_left_eq] at h
    obtain ⟨rfl, hvalue⟩ := quote_append_inj hes.1 hes'.1 h
    simp only [List.cons.injEq, true_and] at hvalue
    obtain ⟨rfl, hrest⟩ := dumps_append_inj hes.2.1 hes'.2.1 (ends_dumpsEntries es)
      (ends_dumpsEntries es') hvalue
    obtain ⟨rfl, rfl⟩ := dumpsEntries_append_inj hes.2.2 hes'.2.2 hrest
    exact ⟨rfl, rfl⟩

end

/-- **Injectivity.** Values without escapes that are written alike are the same. -/
theorem dumps_injective {v v' : Json} (hv : Plain v) (hv' : Plain v') {level : ℕ}
    (h : dumps level v = dumps level v') : v = v' := by
  have happend : dumps level v ++ [] = dumps level v' ++ [] := by rw [h]
  exact (dumps_append_inj hv hv' ends_nil ends_nil happend).1

end Json

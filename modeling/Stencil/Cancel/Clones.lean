import Stencil.Cancel.Token
/-!
# Clones of tokens

A token is shared by all who hold a clone of it: a clone is a place from which the token is reached,
and what is done through one clone is seen through all of them.  Each piece of work has a token of
its own.
-/
namespace Stencil

/-- The tokens in use, and the clones through which they are reached. -/
structure TokenPool where
  tokens : List CancelToken := []
  /-- For each clone the place of its token. -/
  clones : List Nat := []
  /-- No clone is without a token. -/
  reaches : ∀ place ∈ clones, place < tokens.length := by simp

namespace TokenPool

/-- What settling the work of a token came to, and the place of the token. -/
structure Answer where
  place : Nat
  how : Settlement
  /-- Whether the work was pending. -/
  won : Bool
  deriving Repr, DecidableEq

/-- What is done with tokens.  Clones are numbered in the order in which they are made. -/
inductive Step where
  /-- A token for a new piece of work is made, and its first clone. -/
  | create
  /-- Another clone is made of the token of a clone. -/
  | clone (of : Nat)
  /-- The work of the token of a clone is settled. -/
  | settle (through : Nat) (how : Settlement)
  deriving Repr, DecidableEq

/-- One more token, with one clone. -/
def create (pool : TokenPool) : TokenPool where
  tokens := pool.tokens ++ [.pending]
  clones := pool.clones ++ [pool.tokens.length]
  reaches place h := by
    rw [List.length_append, List.length_singleton]
    rcases List.mem_append.mp h with h | h
    · exact Nat.lt_succ_of_lt (pool.reaches place h)
    · exact List.mem_singleton.mp h ▸ Nat.lt_succ_self _

/-- One more clone of the token of a clone. -/
def clone (pool : TokenPool) (of : Nat) : TokenPool where
  tokens := pool.tokens
  clones := pool.clones ++ pool.clones[of]?.toList
  reaches place h := by
    rcases List.mem_append.mp h with h | h
    · exact pool.reaches place h
    · exact pool.reaches place (List.mem_of_getElem? (Option.mem_toList.mp h))

/-- Settles the work of the token of a clone. -/
def settle (pool : TokenPool) (through : Nat) (how : Settlement) : Option Answer × TokenPool :=
  match h : pool.clones[through]? with
  | none => (none, pool)
  | some place =>
    have hplace : place < pool.tokens.length := pool.reaches place (List.mem_of_getElem? h)
    let (won, t) := pool.tokens[place].settle how
    (some ⟨place, how, won⟩,
      { pool with
        tokens := pool.tokens.set place t
        reaches := by simpa using pool.reaches })

/-- One step, and the answer that it gives, if it settles something. -/
def perform (pool : TokenPool) : Step → Option Answer × TokenPool
  | .create => (none, pool.create)
  | .clone of => (none, pool.clone of)
  | .settle through how => pool.settle through how

/-- The token that a clone stands for. -/
def token? (pool : TokenPool) (clone : Nat) : Option CancelToken :=
  pool.clones[clone]?.bind fun place => pool.tokens[place]?

end TokenPool
end Stencil

import DocumentStore.Config.Basic
import DocumentStore.Number.Binary

/-! Distances between vectors, summed in double precision from left to right over the shorter
length. A lower distance is closer. -/
namespace DocumentStore.Vector

def products (a b : List Float32) : List Float :=
  List.zipWith (fun x y => Number.widen x * Number.widen y) a b

/-- The sum of nothing is negative zero, which changes no other sum. -/
def dot (a b : List Float32) : Float := (products a b).foldl (· + ·) (-0.0)

def norm (a : List Float32) : Float := Float.sqrt (dot a a)

/-- A vector of norm zero is like no other. -/
def cosine (a b : List Float32) : Float :=
  if norm a == 0.0 || norm b == 0.0 then 0.0 else dot a b / (norm a * norm b)

def distance (s : Similarity) (a b : List Float32) : Float :=
  match s with
  | .dotProduct => -dot a b
  | .cosine => 1.0 - cosine a b

end DocumentStore.Vector

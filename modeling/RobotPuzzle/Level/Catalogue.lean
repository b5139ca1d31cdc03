/-
  The levels that come with the program, in the order in which they are offered.
-/
import RobotPuzzle.Level.Basic

namespace RobotPuzzle

namespace Level

/-- A straight corridor. -/
def corridor : Level :=
  { id := .str "corridor"
    name := .str "First Steps"
    grid :=
      [[1, 1, 1, 1, 1, 1, 1],
       [1, 0, 0, 0, 0, 2, 1],
       [1, 1, 1, 1, 1, 1, 1]]
    spawner := { pose := ⟨⟨1, 1⟩, 1⟩ }
    maxTicks := some 50 }

/-- One turn. -/
def corner : Level :=
  { id := .str "corner"
    name := .str "Round the Bend"
    grid :=
      [[1, 1, 1, 1, 1],
       [1, 0, 0, 0, 1],
       [1, 1, 1, 0, 1],
       [1, 1, 1, 2, 1],
       [1, 1, 1, 1, 1]]
    spawner := { pose := ⟨⟨1, 1⟩, 1⟩ }
    exits := [⟨3, 3⟩]
    maxTicks := some 50 }

/-- A plate that unlocks a door. -/
def plateDoor : Level :=
  { id := .str "plate-door"
    name := .str "Open Sesame"
    grid :=
      [[1, 1, 1, 1, 1, 1, 1],
       [1, 0, 4, 0, 5, 2, 1],
       [1, 1, 1, 1, 1, 1, 1]]
    spawner := { pose := ⟨⟨1, 1⟩, 1⟩ }
    maxTicks := some 60 }

/-- A hazard to walk around. -/
def hazardDetour : Level :=
  { id := .str "hazard-detour"
    name := .str "Mind the Gap"
    grid :=
      [[1, 1, 1, 1, 1, 1],
       [1, 0, 0, 3, 2, 1],
       [1, 1, 0, 0, 0, 1],
       [1, 1, 1, 1, 1, 1]]
    spawner := { pose := ⟨⟨1, 1⟩, 1⟩ }
    exits := [⟨4, 1⟩]
    maxTicks := some 60 }

/-- A raft and a jetty. -/
def ferryRide : Level :=
  { id := .str "ferry"
    name := .str "All Aboard"
    grid :=
      [[1, 1, 1, 1, 1, 1, 1],
       [1, 0, 7, 6, 8, 2, 1],
       [1, 1, 1, 1, 1, 1, 1]]
    spawner := { pose := ⟨⟨1, 1⟩, 1⟩ }
    maxTicks := some 60 }

/-- Three robots, one every two ticks. -/
def convoy : Level :=
  { id := .str "convoy"
    name := .str "Follow the Leader"
    grid :=
      [[1, 1, 1, 1, 1, 1, 1, 1],
       [1, 0, 0, 0, 0, 0, 2, 1],
       [1, 1, 1, 1, 1, 1, 1, 1]]
    spawner := { pose := ⟨⟨1, 1⟩, 1⟩, count := 3, interval := 2 }
    requiredSaved := 3
    maxTicks := some 80 }

/-- All of them. -/
def catalogue : List Level := [corridor, corner, plateDoor, hazardDetour, ferryRide, convoy]

/-- The level of the catalogue with that identifier. -/
def find? (id : String) : Option Level := catalogue.find? fun level => level.id.toText? == some id

end Level

end RobotPuzzle

import Chkdraft.Core.Scan

/-!
# Unit names

The names by which a unit may be written in trigger text: the standard names,
which are tried before the names of the map, the legacy names and shortcuts,
which are tried after them, and the display names a unit has when the map gives
it none.  The comparisons of the source are grouped by their leading letters;
here each name is written out.
-/

namespace Chkdraft.TextTrigs

open Scan

/-- The standard names, in upper case, with their unit types. -/
def standardUnitNames : List (String × ℕ) :=
  [("ALAN SCHEZAR (GOLIATH)", 17), ("ALAN SCHEZAR TURRET", 18),
    ("ALDARIS (TEMPLAR)", 87), ("ALEXEI STUKOV (GHOST)", 100),
    ("ANY UNIT", 229), ("ARCTURUS MENGSK (BATTLECRUISER)", 27),
    ("ARTANIS (SCOUT)", 88), ("BENGALAAS (JUNGLE CRITTER)", 90),
    ("BUILDINGS", 231), ("CARGO SHIP (UNUSED)", 91), ("CATINA (UNUSED)", 181),
    ("CAVE (UNUSED)", 179), ("CAVE-IN (UNUSED)", 180),
    ("DANIMOTH (ARBITER)", 86), ("DARK SWARM", 202), ("DATA DISC", 218),
    ("DEVOURING ONE (ZERGLING)", 54), ("DISRUPTION WEB", 105),
    ("EDMUND DUKE (SIEGE MODE)", 25), ("EDMUND DUKE (TANK MODE)", 23),
    ("EDMUND DUKE TURRET (SIEGE MODE)", 26),
    ("EDMUND DUKE TURRET (TANK MODE)", 24), ("FACTORIES", 232),
    ("FENIX (DRAGOON)", 78), ("FENIX (ZEALOT)", 77), ("FLAG", 215),
    ("FLOOR GUN TRAP", 209), ("FLOOR HATCH (UNUSED)", 204),
    ("FLOOR MISSILE TRAP", 203), ("GANTRITHOR (CARRIER)", 82),
    ("GERARD DUGALLE (BATTLECRUISER)", 102), ("GOLIATH TURRET", 4),
    ("GUI MONTAG (FIREBAT)", 10), ("HUNTER KILLER (HYDRALISK)", 53),
    ("HYPERION (BATTLECRUISER)", 28),
    ("INDEPENDENT COMMAND CENTER (UNUSED)", 183),
    ("INDEPENDENT JUMP GATE (UNUSED)", 185),
    ("INDEPENDENT STARPORT (UNUSED)", 184), ("INFESTED COMMAND CENTER", 130),
    ("INFESTED DURAN (INFESTED TERRAN)", 104),
    ("INFESTED KERRIGAN (INFESTED TERRAIN)", 51), ("INFESTED TERRAN", 50),
    ("ION CANNON", 127), ("JIM RAYNOR (MARINE)", 20),
    ("JIM RAYNOR (VULTURE)", 19), ("KAKARU (TWILIGHT CRITTER)", 94),
    ("KHADARIN CRYSTAL FORMATION (UNUSED)", 187), ("KHALIS CRYSTAL", 129),
    ("KHAYDARIN CRYSTAL", 219), ("KHAYDARIN CRYSTAL FORMATION", 173),
    ("KUKULZA (GUARDIAN)", 56), ("KUKULZA (MUTALISK)", 55),
    ("LEFT PIT DOOR", 207), ("LEFT UPPER LEVEL DOOR", 205),
    ("LEFT WALL FLAME TRAP", 211), ("LEFT WALL MISSILE TRAP", 210),
    ("LURKER EGG", 97), ("MAGELLAN (SCIENCE VESSEL)", 22),
    ("MAP REVEALER", 101), ("MATRIARCH (QUEEN)", 49), ("MATURE CRYSALIS", 150),
    ("MEN", 230), ("MERCENARY GUNSHIP (UNUSED)", 92),
    ("MINERAL CLUSTER TYPE 1", 220), ("MINERAL CLUSTER TYPE 2", 221),
    ("MINERAL FIELD (TYPE 1)", 176), ("MINERAL FIELD (TYPE 2)", 177),
    ("MINERAL FIELD (TYPE 3)", 178), ("MINING PLATFORM (UNUSED)", 182),
    ("MOJO (SCOUT)", 80), ("MUTALISK COCOON", 59),
    ("NORAD II (BATTLECRUISER)", 29), ("NORAD II (CRASHED)", 126),
    ("NUCLEAR MISSILE", 14), ("OVERMIND COCOON", 201), ("PROTOSS ARBITER", 71),
    ("PROTOSS ARBITER TRIBUNAL", 170), ("PROTOSS ARCHON", 68),
    ("PROTOSS ASSIMILATOR", 157), ("PROTOSS BEACON", 196),
    ("PROTOSS CARRIER", 72), ("PROTOSS CITADEL OF ADUN", 163),
    ("PROTOSS CORSAIR", 60), ("PROTOSS CYBERNETICS CORE", 164),
    ("PROTOSS DARK ARCHON", 63), ("PROTOSS DARK TEMPLAR (HERO)", 74),
    ("PROTOSS DARK TEMPLAR (UNIT)", 61), ("PROTOSS DRAGOON", 66),
    ("PROTOSS FLAG BEACON", 199), ("PROTOSS FLEET BEACON", 169),
    ("PROTOSS FORGE", 166), ("PROTOSS GATEWAY", 160),
    ("PROTOSS HIGH TEMPLAR", 67), ("PROTOSS INTERCEPTOR", 73),
    ("PROTOSS MARKER", 193), ("PROTOSS NEXUS", 154),
    ("PROTOSS OBSERVATORY", 159), ("PROTOSS OBSERVER", 84),
    ("PROTOSS PHOTON CANNON", 162), ("PROTOSS PROBE", 64),
    ("PROTOSS PYLON", 156), ("PROTOSS REAVER", 83),
    ("PROTOSS ROBOTICS FACILITY", 155), ("PROTOSS ROBOTICS SUPPORT BAY", 171),
    ("PROTOSS SCARAB", 85), ("PROTOSS SCOUT", 70),
    ("PROTOSS SHIELD BATTERY", 172), ("PROTOSS SHUTTLE", 69),
    ("PROTOSS STARGATE", 167), ("PROTOSS TEMPLAR ARCHIVES", 165),
    ("PROTOSS TEMPLE", 174), ("PROTOSS VESPENE GAS ORB TYPE 1", 222),
    ("PROTOSS VESPENE GAS ORB TYPE 2", 223), ("PROTOSS ZEALOT", 65),
    ("PSI DISRUPTER", 190), ("PSI EMITTER", 217), ("POWER GENERATOR", 200),
    ("RAGNASAUR (ASHWORLD CRITTER)", 95), ("RASZAGAL (CORSAIR)", 98),
    ("REPAIR BAY (UNUSED)", 121), ("RHYNADON (BADLANDS CRITTER)", 89),
    ("RIGHT PIT DOOR", 208), ("RIGHT UPPER LEVEL DOOR", 206),
    ("RIGHT WALL FLAME TRAP", 213), ("RIGHT WALL MISSILE TRAP", 212),
    ("RUINS (UNUSED)", 186), ("SAMIR DURAN (GHOST)", 99),
    ("SARAH KERRIGAN (GHOST)", 16), ("SCANNER SWEEP", 33),
    ("SCANTID (DESERT CRITTER)", 93), ("SIEGE TANK TURRET (SIEGE MODE)", 31),
    ("SIEGE TANK TURRET (TANK MODE)", 6), ("SPIDER MINE", 13),
    ("STARBASE (UNUSED)", 119), ("START LOCATION", 214),
    ("STASIS CELL/PRISON", 168), ("TERRAN ACADEMY", 112),
    ("TERRAN ARMORY", 123), ("TERRAN BARRACKS", 111),
    ("TERRAN BATTLECRUISER", 12), ("TERRAN BEACON", 195),
    ("TERRAN BUNKER", 125), ("TERRAN CIVILIAN", 15),
    ("TERRAN COMMAND CENTER", 106), ("TERRAN COMSAT STATION", 107),
    ("TERRAN CONTROL TOWER", 115), ("TERRAN COVERT OPS", 117),
    ("TERRAN DROPSHIP", 11), ("TERRAN ENGINEERING BAY", 122),
    ("TERRAN FACTORY", 113), ("TERRAN FIREBAT", 32),
    ("TERRAN FLAG BEACON", 198), ("TERRAN GHOST", 1), ("TERRAN GOLIATH", 3),
    ("TERRAN MACHINE SHOP", 120), ("TERRAN MARINE", 0), ("TERRAN MARKER", 192),
    ("TERRAN MEDIC", 34), ("TERRAN MISSILE TURRET", 124),
    ("TERRAN NUCLEAR SILO", 108), ("TERRAN PHYSICS LAB", 118),
    ("TERRAN REFINERY", 110), ("TERRAN SCIENCE FACILITY", 116),
    ("TERRAN SCIENCE VESSEL", 9), ("TERRAN SCV", 7),
    ("TERRAN SIEGE TANK (SIEGE MODE)", 30),
    ("TERRAN SIEGE TANK (TANK MODE)", 5), ("TERRAN STARPORT", 114),
    ("TERRAN SUPPLY DEPOT", 109), ("TERRAN VALKYRIE", 58),
    ("TERRAN VESPENE GAS TANK TYPE 1", 226),
    ("TERRAN VESPENE GAS TANK TYPE 2", 227), ("TERRAN VULTURE", 2),
    ("TERRAN WRAITH", 8), ("TASSADAR (TEMPLAR)", 79),
    ("TASSADAR/ZERATUL (ARCHON)", 76), ("TOM KAZANSKY (WRAITH)", 21),
    ("TORRASQUE (ULTRALISK)", 48), ("UNCLEAN ONE (DEFILER)", 52),
    ("UNUSED PROTOSS BUILDING 1", 158), ("UNUSED PROTOSS BUILDING 2", 161),
    ("UNUSED ZERG BUILDING 1", 145), ("UNUSED ZERG BUILDING 2", 145),
    ("URAJ CRYSTAL", 128), ("URSADON (ICE WORLD CRITTER)", 96),
    ("VESPENE GEYSER", 188), ("WARBRINGER (REAVER)", 81), ("WARP GATE", 189),
    ("XEL'NAGA TEMPLE", 175), ("YGGDRASILL (OVERLORD)", 57),
    ("YOUNG CHRYSALIS", 216), ("ZERG BEACON", 194), ("ZERG BROODLING", 40),
    ("ZERG CEREBRATE", 151), ("ZERG CEREBRATE DAGGOTH", 152),
    ("ZERG CREEP COLONY", 143), ("ZERG DEFILER", 46),
    ("ZERG DEFILER MOUND", 136), ("ZERG DEVOURER", 62), ("ZERG DRONE", 41),
    ("ZERG EGG", 36), ("ZERG EVOLUTION CHAMBER", 139), ("ZERG EXTRACTOR", 149),
    ("ZERG FLAG BEACON", 197), ("ZERG GREATER SPIRE", 137),
    ("ZERG GUARDIAN", 44), ("ZERG HATCHERY", 131), ("ZERG HIVE", 133),
    ("ZERG HYDRALISK", 38), ("ZERG HYDRALISK DEN", 135), ("ZERG LAIR", 132),
    ("ZERG LARVA", 35), ("ZERG LURKER", 103), ("ZERG MARKER", 191),
    ("ZERG MUTALISK", 43), ("ZERG NYDUS CANAL", 134), ("ZERG OVERLORD", 42),
    ("ZERG OVERMIND", 148), ("ZERG OVERMIND (WITH SHELL)", 147),
    ("ZERG QUEEN", 45), ("ZERG QUEEN'S NEST", 138), ("ZERG SCOURGE", 47),
    ("ZERG SPAWNING POOL", 142), ("ZERG SPIRE", 141),
    ("ZERG SPORE COLONY", 144), ("ZERG SUNKEN COLONY", 146),
    ("ZERG ULTRALISK", 39), ("ZERG ULTRALISK CAVERN", 140),
    ("ZERG VESPENE GAS SAC TYPE 1", 224), ("ZERG VESPENE GAS SAC TYPE 2", 225),
    ("ZERG ZERGLING", 37), ("ZERATUL (DARK TEMPLAR)", 75)]

/-- Legacy names, alternative names and shortcuts.  The case of the letter R
runs into the case of S, so a name with R for S is accepted too. -/
def legacyUnitNames : List (String × ℕ) :=
  [("[ANY UNIT]", 229), ("[BUILDINGS]", 231), ("[FACTORIES]", 232),
    ("[MEN]", 230), ("ALAN TURRET", 18), ("BENGALAAS (JUNGLE)", 90),
    ("CANTINA", 181), ("CAVE", 179), ("CAVE-IN", 180), ("COCOON", 59),
    ("DARK TEMPLAR (HERO)", 74), ("DISRUPTION FIELD", 105),
    ("DUKE TURRET TYPE 1", 24), ("DUKE TURRET TYPE 2", 26),
    ("EDMUND DUKE (SIEGE TANK)", 23), ("GERARD DUGALLE (GHOST)", 102),
    ("INDEPENDENT COMMAND CENTER", 183), ("INDEPENDENT STARPORT", 184),
    ("INFESTED DURAN", 104), ("INFESTED KERRIGAN (INFESTED TERRAN)", 51),
    ("INVALID UNIT", 228), ("JUMP GATE", 185), ("KAKARU (TWILIGHT)", 94),
    ("KYADARIN CRYSTAL FORMATION", 187), ("MINING PLATFORM", 182),
    ("MINERAL CHUNK (TYPE 1)", 220), ("MINERAL CHUNK (TYPE 2)", 221),
    ("NORAD II (CRASHED BATTLECRUISER)", 126), ("PROTOSS DARK TEMPLAR", 61),
    ("PROTOSS UNUSED TYPE 1", 158), ("PROTOSS UNUSED TYPE 2", 161),
    ("RAGNASAUR (ASH WORLD)", 95), ("RUINS", 186), ("RHYNADON (BADLANDS)", 89),
    ("RASZAGAL (DARK TEMPLAR)", 98), ("RCANTID (DESERT)", 93),
    ("SCANTID (DESERT)", 93), ("TANK TURRET TYPE 1", 6),
    ("TANK TURRET TYPE 2", 31), ("UNUSED TERRAN BLDG TYPE 1", 119),
    ("UNUSED TERRAN BLDG TYPE 2", 121), ("UNUSED TYPE 1", 91),
    ("UNUSED TYPE 2", 92), ("UNUSED ZERG BLDG", 145),
    ("UNUSED ZERG BLDG 5", 153), ("URSADON (ICE WORLD)", 96),
    ("VULTURE SPIDER MINE", 13), ("VESPENE TANK (TERRAN TYPE 1)", 226),
    ("VESPENE TANK (TERRAN TYPE 2)", 227),
    ("VESPENE ORB (PROTOSS TYPE 1)", 222),
    ("VESPENE ORB (PROTOSS TYPE 2)", 223), ("VESPENE SAC (ZERG TYPE 1)", 224),
    ("VESPENE SAC (ZERG TYPE 2)", 225), ("ZERG LURKER EGG", 97)]

/-- `Sc::Unit::defaultDisplayNames` of the unit types a map can rename. -/
def defaultDisplayNames : List String :=
  ["Terran Marine", "Terran Ghost", "Terran Vulture", "Terran Goliath",
    "Goliath Turret", "Terran Siege Tank (Tank Mode)",
    "Siege Tank Turret (Tank Mode)", "Terran SCV", "Terran Wraith",
    "Terran Science Vessel", "Gui Montag (Firebat)", "Terran Dropship",
    "Terran Battlecruiser", "Spider Mine", "Nuclear Missile", "Terran Civilian",
    "Sarah Kerrigan (Ghost)", "Alan Schezar (Goliath)", "Alan Schezar Turret",
    "Jim Raynor (Vulture)", "Jim Raynor (Marine)", "Tom Kazansky (Wraith)",
    "Magellan (Science Vessel)", "Edmund Duke (Tank Mode)",
    "Edmund Duke Turret (Tank Mode)", "Edmund Duke (Siege Mode)",
    "Edmund Duke Turret (Siege Mode)", "Arcturus Mengsk (Battlecruiser)",
    "Hyperion (Battlecruiser)", "Norad II (Battlecruiser)",
    "Terran Siege Tank (Siege Mode)", "Siege Tank Turret (Siege Mode)",
    "Terran Firebat", "Scanner Sweep", "Terran Medic", "Zerg Larva", "Zerg Egg",
    "Zerg Zergling", "Zerg Hydralisk", "Zerg Ultralisk", "Zerg Broodling",
    "Zerg Drone", "Zerg Overlord", "Zerg Mutalisk", "Zerg Guardian",
    "Zerg Queen", "Zerg Defiler", "Zerg Scourge", "Torrasque (Ultralisk)",
    "Matriarch (Queen)", "Infested Terran",
    "Infested Kerrigan (Infested Terran)", "Unclean One (Defiler)",
    "Hunter Killer (Hydralisk)", "Devouring One (Zergling)",
    "Kukulza (Mutalisk)", "Kukulza (Guardian)", "Yggdrasill (Overlord)",
    "Terran Valkyrie", "Mutalisk Cocoon", "Protoss Corsair",
    "Protoss Dark Templar", "Zerg Devourer", "Protoss Dark Archon",
    "Protoss Probe", "Protoss Zealot", "Protoss Dragoon",
    "Protoss High Templar", "Protoss Archon", "Protoss Shuttle",
    "Protoss Scout", "Protoss Arbiter", "Protoss Carrier",
    "Protoss Interceptor", "Protoss Dark Templar (Hero)",
    "Zeratul (Dark Templar)", "Tassadar/Zeratul (Archon)", "Fenix (Zealot)",
    "Fenix (Dragoon)", "Tassadar (Templar)", "Mojo (Scout)",
    "Warbringer (Reaver)", "Gantrithor (Carrier)", "Protoss Reaver",
    "Protoss Observer", "Protoss Scarab", "Danimoth (Arbiter)",
    "Aldaris (Templar)", "Artanis (Scout)", "Rhynadon (Badlands Critter)",
    "Bengalaas (Jungle Critter)", "Cargo Ship (Unused)",
    "Mercenary Gunship (Unused)", "Scantid (Desert Critter)",
    "Kakaru (Twilight Critter)", "Ragnasaur (Ashworld Critter)",
    "Ursadon (Ice World Critter)", "Lurker Egg", "Raszagal (Corsair)",
    "Samir Duran (Ghost)", "Alexei Stukov (Ghost)", "Map Revealer",
    "Gerard DuGalle (BattleCruiser)", "Zerg Lurker", "Infested Duran",
    "Disruption Web", "Terran Command Center", "Terran Comsat Station",
    "Terran Nuclear Silo", "Terran Supply Depot", "Terran Refinery",
    "Terran Barracks", "Terran Academy", "Terran Factory", "Terran Starport",
    "Terran Control Tower", "Terran Science Facility", "Terran Covert Ops",
    "Terran Physics Lab", "Starbase (Unused)", "Terran Machine Shop",
    "Repair Bay (Unused)", "Terran Engineering Bay", "Terran Armory",
    "Terran Missile Turret", "Terran Bunker", "Norad II (Crashed)",
    "Ion Cannon", "Uraj Crystal", "Khalis Crystal", "Infested Command Center",
    "Zerg Hatchery", "Zerg Lair", "Zerg Hive", "Zerg Nydus Canal",
    "Zerg Hydralisk Den", "Zerg Defiler Mound", "Zerg Greater Spire",
    "Zerg Queen's Nest", "Zerg Evolution Chamber", "Zerg Ultralisk Cavern",
    "Zerg Spire", "Zerg Spawning Pool", "Zerg Creep Colony",
    "Zerg Spore Colony", "Unused Zerg Building 1", "Zerg Sunken Colony",
    "Zerg Overmind (With Shell)", "Zerg Overmind", "Zerg Extractor",
    "Mature Crysalis", "Zerg Cerebrate", "Zerg Cerebrate Daggoth",
    "Unused Zerg Building 2", "Protoss Nexus", "Protoss Robotics Facility",
    "Protoss Pylon", "Protoss Assimilator", "Unused Protoss Building 1",
    "Protoss Observatory", "Protoss Gateway", "Unused Protoss Building 2",
    "Protoss Photon Cannon", "Protoss Citadel of Adun",
    "Protoss Cybernetics Core", "Protoss Templar Archives", "Protoss Forge",
    "Protoss Stargate", "Stasis Cell/Prison", "Protoss Fleet Beacon",
    "Protoss Arbiter Tribunal", "Protoss Robotics Support Bay",
    "Protoss Shield Battery", "Khaydarin Crystal Formation", "Protoss Temple",
    "Xel'Naga Temple", "Mineral Field (Type 1)", "Mineral Field (Type 2)",
    "Mineral Field (Type 3)", "Cave (Unused)", "Cave-in (Unused)",
    "Cantina (Unused)", "Mining Platform (Unused)",
    "Independent Command Center (Unused)", "Independent Starport (Unused)",
    "Independent Jump Gate (Unused)", "Ruins (Unused)",
    "Khadarin Crystal Formation (Unused)", "Vespene Geyser", "Warp Gate",
    "Psi Disrupter", "Zerg Marker", "Terran Marker", "Protoss Marker",
    "Zerg Beacon", "Terran Beacon", "Protoss Beacon", "Zerg Flag Beacon",
    "Terran Flag Beacon", "Protoss Flag Beacon", "Power Generator",
    "Overmind Cocoon", "Dark Swarm", "Floor Missile Trap",
    "Floor Hatch (Unused)", "Left Upper Level Door", "Right Upper Level Door",
    "Left Pit Door", "Right Pit Door", "Floor Gun Trap",
    "Left Wall Missile Trap", "Left Wall Flame Trap", "Right Wall Missile Trap",
    "Right Wall Flame Trap", "Start Location", "Flag", "Young Chrysalis",
    "Psi Emitter", "Data Disc", "Khaydarin Crystal", "Mineral Cluster Type 1",
    "Mineral Cluster Type 2", "Protoss Vespene Gas Orb Type 1",
    "Protoss Vespene Gas Orb Type 2", "Zerg Vespene Gas Sac Type 1",
    "Zerg Vespene Gas Sac Type 2", "Terran Vespene Gas Tank Type 1",
    "Terran Vespene Gas Tank Type 2"]

/-- The unit type of a name in one of the tables. -/
def lookupUnitName (table : List (String × ℕ)) (name : Text) : Option ℕ :=
  (table.find? fun entry => ascii entry.1 = name).map Prod.snd

end Chkdraft.TextTrigs

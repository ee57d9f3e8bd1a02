import Chkdraft.Sections.KstrProperties
import Chkdraft.Sections.KstrDecoding
import Chkdraft.Sections.EncoderAgreement
import Chkdraft.Sections.StrTail
import Chkdraft.Scenario.MoveString
import Chkdraft.Scenario.FailedLoad
import Chkdraft.TextTrigs.Replacement
import Chkdraft.TextTrigs.StringResolution
import Chkdraft.TextTrigs.ChkdStrings
import Chkdraft.TextTrigs.Numerals
import Chkdraft.TextTrigs.ParserBounds
import Chkdraft.TextTrigs.LiteralAlignment
import Chkdraft.Scenario.CommentFrames
import Chkdraft.Archive.AssetReplay
import Chkdraft.Commands.UndoRequests
import Chkdraft.Editor.LocationRestore
import Chkdraft.Editor.UnsavedChanges
import Chkdraft.Scenario.KstrMigration
import Chkdraft.Scenario.SaveSections
import Chkdraft.Sections.FogResize
import Chkdraft.Sections.ItemMoves
import Chkdraft.Chk.AlignTop
import Chkdraft.Scenario.ExtensionSlots
import Chkdraft.Scenario.IndexPacking
import Chkdraft.Scenario.UnitProperties
import Chkdraft.Scenario.LocationMoves
import Chkdraft.Scenario.OutOfBounds
import Chkdraft.TextTrigs.NameSpellings
import Chkdraft.Editor.LocationClicks
import Chkdraft.Editor.UnitPaste
import Chkdraft.Editor.FloodFill
import Chkdraft.Editor.ReorderingLimits
import Chkdraft.Editor.ReorderingUndo
import Chkdraft.Editor.OpenMaps
import Chkdraft.Archive.SystemPaths
import Chkdraft.Commands.Logging
import Chkdraft.Sc.Pcx
import Chkdraft.Sc.TblFile
import Chkdraft.TextTrigs.SwitchBuffer
import Chkdraft.TextTrigs.GeneratorStrings
import Chkdraft.Archive.PartialSaves
import Chkdraft.Archive.SoundStatus
import Chkdraft.Scenario.PasswordHash
import Chkdraft.Scenario.SettingPolicies
import Chkdraft.Scenario.RescopeTexts
import Chkdraft.Sc.Grp
import Chkdraft.Editor.ColorCycles

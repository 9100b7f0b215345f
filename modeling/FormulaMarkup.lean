import FormulaMarkup.AlphabeticCharacters
import FormulaMarkup.BlankCharacters
import FormulaMarkup.BuiltinCommands
import FormulaMarkup.ByteSpans
import FormulaMarkup.CanonicalText
import FormulaMarkup.CharacterRanges
import FormulaMarkup.ChemicalNotation
import FormulaMarkup.CommandArguments
import FormulaMarkup.CommandHandlers
import FormulaMarkup.CommandLine
import FormulaMarkup.CommandRegistry
import FormulaMarkup.CommandShapes
import FormulaMarkup.ConfigurationFile
import FormulaMarkup.Dictionaries
import FormulaMarkup.FormulaConversion
import FormulaMarkup.FormulaErrors
import FormulaMarkup.FormulaLayout
import FormulaMarkup.FormulaLexer
import FormulaMarkup.FormulaNodes
import FormulaMarkup.FormulaParser
import FormulaMarkup.FormulaTokens
import FormulaMarkup.LayoutContexts
import FormulaMarkup.LiteralClasses
import FormulaMarkup.Main
import FormulaMarkup.MarkupElements
import FormulaMarkup.MarkupEscaping
import FormulaMarkup.MarkupTags
import FormulaMarkup.Proofs.AttributeTargets
import FormulaMarkup.Proofs.BareMarkup
import FormulaMarkup.Proofs.BoundedTrees
import FormulaMarkup.Proofs.BracedLayouts
import FormulaMarkup.Proofs.BracedScripts
import FormulaMarkup.Proofs.CanonicalLimits
import FormulaMarkup.Proofs.CanonicalReading
import FormulaMarkup.Proofs.CharacterPlaces
import FormulaMarkup.Proofs.ChemistryOption
import FormulaMarkup.Proofs.ClearElements
import FormulaMarkup.Proofs.CommandTables
import FormulaMarkup.Proofs.CommandUses
import FormulaMarkup.Proofs.ComparedReadings
import FormulaMarkup.Proofs.DepthCounter
import FormulaMarkup.Proofs.ErrorPlaces
import FormulaMarkup.Proofs.EscapePairs
import FormulaMarkup.Proofs.FilledPlaces
import FormulaMarkup.Proofs.FormulaGrammar
import FormulaMarkup.Proofs.FusedNumerals
import FormulaMarkup.Proofs.GrammarReading
import FormulaMarkup.Proofs.InheritedTypefaces
import FormulaMarkup.Proofs.InterleavedTokens
import FormulaMarkup.Proofs.LaidElements
import FormulaMarkup.Proofs.LayoutConditions
import FormulaMarkup.Proofs.LayoutFailures
import FormulaMarkup.Proofs.LayoutStructure
import FormulaMarkup.Proofs.LegibleTokens
import FormulaMarkup.Proofs.LexemeRuns
import FormulaMarkup.Proofs.LexerSteps
import FormulaMarkup.Proofs.LocatedErrors
import FormulaMarkup.Proofs.MarkupGrammar
import FormulaMarkup.Proofs.MissingArguments
import FormulaMarkup.Proofs.NamedFailures
import FormulaMarkup.Proofs.NestedTables
import FormulaMarkup.Proofs.NullCharacters
import FormulaMarkup.Proofs.OpenConstructs
import FormulaMarkup.Proofs.OwnAttributes
import FormulaMarkup.Proofs.ReadNodes
import FormulaMarkup.Proofs.ReadPrefixes
import FormulaMarkup.Proofs.ReadTrees
import FormulaMarkup.Proofs.SettledErrors
import FormulaMarkup.Proofs.SingleElements
import FormulaMarkup.Proofs.TextBoxes
import FormulaMarkup.Proofs.WrittenAttributeNames
import FormulaMarkup.Proofs.WrittenPhrases
import FormulaMarkup.QuotedText
import FormulaMarkup.TableEnvironments
import FormulaMarkup.TextArguments
import FormulaMarkup.TomlDates
import FormulaMarkup.TomlDocuments
import FormulaMarkup.TomlNumbers
import FormulaMarkup.TomlStrings
import FormulaMarkup.UnprintedCharacters
import FormulaMarkup.WrittenMarkup
import FormulaMarkup.Proofs.BracketFaults
import FormulaMarkup.Proofs.TrailingBlanks
import FormulaMarkup.Proofs.ChemicalParts
import FormulaMarkup.Proofs.MergedDictionaries
import FormulaMarkup.Proofs.EdgeSpaces
import FormulaMarkup.Proofs.DecodedEntities
import FormulaMarkup.Proofs.LexerProgress
